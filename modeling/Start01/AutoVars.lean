/-
Start01/AutoVars.lean

The automatic variables of DebugComm.c.  A history is a sequence of calls of
`RegisterCmd` and `RegisterAutoVar` and of messages for which no handler is
registered; its outputs are the replies.

What the service is for is a map from commands to values (`serve`): a variable is
its place and the bytes it holds, and the one registered last for a command is the
variable of that command.  Reading replies with its bytes, writing replaces them.

`Refines` relates the two: the table names the variables, each of them holds its
bytes in RAM, and the RAM outside the variables is untouched.  As the variables
are disjoint, a write to one leaves the others (`autoVars_refine_map`).
-/
import Start01.CmdTable

namespace Start01

open Scatter Run

/-! ### The map -/

/-- A variable that has been registered, with the bytes it holds: the first `size` of
`bytes`. -/
structure AutoVar where
  cmd : UInt8
  size : UInt8
  addr : Addr
  type : UInt8
  bytes : ℕ → UInt8

namespace AutoVar

/-- What `RegisterAutoVar` stores for it. -/
def entry (v : AutoVar) : TVarItem := ⟨v.cmd, v.size, some v.addr, v.type, 1⟩

/-- The variable has a byte at `a`. -/
def Covers (v : AutoVar) (a : Addr) : Prop := ∃ i < v.size.toNat, a = v.addr + i

/-- The variable of a command: the one registered last. -/
def find (vs : List AutoVar) (cmd : UInt8) : Option AutoVar := vs.find? fun v => v.cmd == cmd

/-- The variable of a command gets new bytes. -/
def write (cmd : UInt8) (bytes : ℕ → UInt8) : List AutoVar → List AutoVar
  | [] => []
  | v :: vs => if v.cmd == cmd then { v with bytes := bytes } :: vs else v :: write cmd bytes vs

/-- A message to the map: the variables afterwards and the reply, or `none` where there is no
variable. -/
def serve (vs : List AutoVar) (msg : TCommMsg) : Option (List AutoVar × TCommMsg) :=
  match find vs msg.cmd with
  | none => none
  | some v =>
    if msg.dir = TCmdDir.dirRead.code then
      some (vs, { msg with
        pad := fun i => if i.val < v.size.toNat then v.bytes i.val else msg.pad i })
    else if msg.dir = TCmdDir.dirWrite.code then some (write msg.cmd msg.padAt vs, msg)
    else none

end AutoVar

/-! ### Histories -/

/-- A registration call or a message. -/
inductive AutoOp
  | registerCmd (item : Addr)
  | registerAutoVar (cmd varSize : UInt8) (varAddr : Option Addr) (varType : UInt8)
  | message (src : TDataChan) (msg : TCommMsg) (ack : Bool)

/-- The program, and what has been registered so far. -/
structure AutoSys where
  sys : Sys
  items : List Addr
  vars : List TVarItem

/-- The reply in an event, if it is one. -/
def Event.reply? : Event → Option (TDataChan × TCommMsg)
  | .ack dest msg => some (dest, msg)
  | _ => none

namespace AutoSys

/-- Before any call, with any route function. -/
def start (base : Addr → TCmd) (pcfg : ParamCfg) (mem : Addr → UInt8)
    (route : Option RouteTableFunc) : AutoSys where
  sys := ⟨{ DebugComm.reset base with routeFunc := route }, pcfg, mem⟩
  items := []
  vars := []

/-- One step of a history; the outputs are the replies. -/
def step (req : Option Addr) (s : AutoSys) :
    AutoOp → Option (AutoSys × List (TDataChan × TCommMsg))
  | .registerCmd a =>
    some ({ s with
      sys := { s.sys with comm := (registerCmd req s.sys.comm (some a)).2 }
      items := s.items ++ [a] }, [])
  | .registerAutoVar cmd varSize varAddr varType =>
    let r := registerAutoVar req s.sys.comm cmd varSize varAddr varType
    some ({ s with
      sys := { s.sys with comm := r.2 }
      vars := if r.1 = 1 then ⟨cmd, varSize, varAddr, varType, 1⟩ :: s.vars else s.vars }, [])
  | .message src msg ack =>
    (cmdService s.items.length s.sys src msg ack).map fun r =>
      ({ s with sys := r.2.1 }, r.2.2.filterMap Event.reply?)

/-- Two entries have no byte in common. -/
def Apart (v w : TVarItem) : Prop :=
  ∀ p ∈ v.varAddr, ∀ q ∈ w.varAddr, ∀ i < v.varSize.toNat, ∀ j < w.varSize.toNat, p + i ≠ q + j

/-- Every object is registered once, and those with a handler are for commands below `CMD_MAX`;
variables are in memory, apart from each other; a message is a read or a write below `CMD_MAX`
for which no handler is registered, and its destination is its source. -/
def Proper (s : AutoSys) : AutoOp → Prop
  | .registerCmd a =>
    a ∉ s.items ∧
      ((s.sys.comm.tcmd a).func.isSome = true → (s.sys.comm.tcmd a).cmd.toNat < cmdMax)
  | .registerAutoVar cmd varSize varAddr varType =>
    varType &&& varUpdateMemory ≠ 0 ∧
      ∀ w ∈ s.vars, Apart ⟨cmd, varSize, varAddr, varType, 1⟩ w
  | .message src msg _ =>
    msg.cmd.toNat < cmdMax ∧ (msg.dir = TCmdDir.dirRead.code ∨ msg.dir = TCmdDir.dirWrite.code) ∧
      (s.sys.comm.routed src src msg).1 = src ∧
      ∀ a ∈ s.items, (s.sys.comm.tcmd a).isFor msg = true → (s.sys.comm.tcmd a).func = none

instance (v w : TVarItem) : Decidable (Apart v w) :=
  inferInstanceAs (Decidable (∀ p ∈ v.varAddr, ∀ q ∈ w.varAddr, ∀ i < v.varSize.toNat,
    ∀ j < w.varSize.toNat, p + i ≠ q + j))

/-- Whether a step is proper can be tested. -/
instance (s : AutoSys) : ∀ op, Decidable (s.Proper op)
  | .registerCmd a =>
    inferInstanceAs (Decidable (a ∉ s.items ∧
      ((s.sys.comm.tcmd a).func.isSome = true → (s.sys.comm.tcmd a).cmd.toNat < cmdMax)))
  | .registerAutoVar cmd varSize varAddr varType =>
    inferInstanceAs (Decidable (varType &&& varUpdateMemory ≠ 0 ∧
      ∀ w ∈ s.vars, Apart ⟨cmd, varSize, varAddr, varType, 1⟩ w))
  | .message src msg _ =>
    decidable_of_iff (msg.cmd.toNat < cmdMax ∧
        (msg.dir = TCmdDir.dirRead.code ∨ msg.dir = TCmdDir.dirWrite.code) ∧
        (s.sys.comm.routed src src msg).1 = src ∧
        ∀ a ∈ s.items, (s.sys.comm.tcmd a).isFor msg = true → (s.sys.comm.tcmd a).func.isNone)
      (by simp only [Proper, Option.isNone_iff_eq_none])

end AutoSys

/-- The message that a route function leaves behind. -/
def routedMsg (route : Option RouteTableFunc) (src : TDataChan) (msg : TCommMsg) : TCommMsg :=
  match route with
  | some route => (route src msg).2
  | none => msg

/-- The same step on the map.  A variable starts with the bytes that are in memory. -/
def AutoVar.step (mem : Addr → UInt8) (route : Option RouteTableFunc) (vs : List AutoVar) :
    AutoOp → List AutoVar × List (TDataChan × TCommMsg)
  | .registerCmd _ => (vs, [])
  | .registerAutoVar cmd varSize varAddr varType =>
    match varAddr with
    | none => (vs, [])
    | some p =>
      if cmd.toNat < maxCmdNum ∧ varSize.toNat ≤ 4 then
        (⟨cmd, varSize, p, varType, fun i => mem (p + i)⟩ :: vs, [])
      else (vs, [])
  | .message src msg ack =>
    match AutoVar.serve vs (routedMsg route src msg) with
    | none => (vs, [])
    | some (vs', reply) => (vs', if ack && src != chanNull then [(src, reply)] else [])

/-! ### The table of variables -/

namespace AutoVar

variable {vs : List AutoVar} {v w : AutoVar} {cmd : UInt8}

theorem find_cons (v : AutoVar) (vs : List AutoVar) (cmd : UInt8) :
    find (v :: vs) cmd = if v.cmd = cmd then some v else find vs cmd := by
  rw [find, List.find?_cons]
  by_cases hv : v.cmd = cmd
  · rw [if_pos hv, beq_iff_eq.mpr hv]
  · rw [if_neg hv, beq_eq_false_iff_ne.mpr hv]
    rfl

theorem find_eq_some (h : find vs cmd = some v) : v ∈ vs ∧ v.cmd = cmd := by
  rw [find] at h
  have hbeq := List.find?_some h
  exact ⟨List.mem_of_find?_eq_some h, beq_iff_eq.mp hbeq⟩

/-- A write leaves the entries. -/
theorem map_entry_write (cmd : UInt8) (bytes : ℕ → UInt8) (vs : List AutoVar) :
    (write cmd bytes vs).map entry = vs.map entry := by
  induction vs with
  | nil => rfl
  | cons v vs ih =>
    rw [write]
    split
    · rfl
    · rw [List.map_cons, List.map_cons, ih]

/-- A write is seen under its command, and under no other. -/
theorem find_write (cmd cmd' : UInt8) (bytes : ℕ → UInt8) (vs : List AutoVar) :
    find (write cmd bytes vs) cmd' =
      (find vs cmd').map fun v => if cmd' = cmd then { v with bytes := bytes } else v := by
  induction vs with
  | nil => rfl
  | cons v vs ih =>
    rw [write, find_cons v vs]
    split
    · rename_i hv
      rw [beq_iff_eq] at hv
      rw [find_cons]
      by_cases hcmd : v.cmd = cmd'
      · rw [if_pos hcmd, if_pos hcmd, Option.map_some, if_pos (hcmd.symm.trans hv)]
      · have hne : cmd' ≠ cmd := fun hc => hcmd (hv.trans hc.symm)
        simp only [if_neg hcmd, if_neg hne, Option.map_id']
    · rename_i hv
      rw [beq_iff_eq] at hv
      rw [find_cons]
      by_cases hcmd : v.cmd = cmd'
      · rw [if_pos hcmd, if_pos hcmd, Option.map_some, if_neg fun hc => hv (hcmd.trans hc)]
      · rw [if_neg hcmd, if_neg hcmd, ih]

/-- What holds of all entries holds of them in any list with the same entries. -/
theorem forall_entry {P : TVarItem → Prop} {ws : List AutoVar} (hmap : ws.map entry = vs.map entry)
    (h : ∀ v ∈ vs, P v.entry) : ∀ w ∈ ws, P w.entry := by
  intro w hw
  have hmem : w.entry ∈ vs.map entry := by
    rw [← hmap]
    exact List.mem_map_of_mem hw
  obtain ⟨v, hv, heq⟩ := List.mem_map.mp hmem
  rw [← heq]
  exact h v hv

/-- Where a variable is stands in its entry. -/
theorem covers_iff (v : AutoVar) (a : Addr) :
    v.Covers a ↔ ∃ p ∈ v.entry.varAddr, ∃ i < v.entry.varSize.toNat, a = p + i := by
  constructor
  · exact fun ⟨i, hi, heq⟩ => ⟨v.addr, rfl, i, hi, heq⟩
  · rintro ⟨p, hp, i, hi, heq⟩
    obtain rfl : v.addr = p := Option.some.inj hp
    exact ⟨i, hi, heq⟩

/-- A write replaces one variable; the others stand in the old relation to it. -/
theorem mem_write {R : AutoVar → AutoVar → Prop} (hsymm : ∀ v w, R v w → R w v) {bytes : ℕ → UInt8}
    (hR : vs.Pairwise R) (h : find vs cmd = some v) (hw : w ∈ write cmd bytes vs) :
    w = { v with bytes := bytes } ∨ w ∈ vs ∧ R v w := by
  induction vs with
  | nil => cases hw
  | cons u vs ih =>
    rw [write] at hw
    rw [find_cons] at h
    rw [List.pairwise_cons] at hR
    split at hw
    · rename_i hu
      rw [if_pos (eq_of_beq hu), Option.some.injEq] at h
      subst h
      exact (List.mem_cons.mp hw).imp_right fun hw => ⟨List.mem_cons_of_mem u hw, hR.1 w hw⟩
    · rename_i hu
      rw [if_neg fun hc => hu (beq_iff_eq.mpr hc)] at h
      rcases List.mem_cons.mp hw with rfl | hw
      · exact .inr ⟨List.mem_cons_self, hsymm _ _ (hR.1 v (find_eq_some h).1)⟩
      · exact (ih hR.2 h hw).imp_right fun hw => ⟨List.mem_cons_of_mem u hw.1, hw.2⟩

end AutoVar

/-- The entries of the table are those of the variables. -/
def Tabled (table : ℕ → TVarItem) (vs : List AutoVar) : Prop :=
  ∀ cmd : UInt8, cmd.toNat < maxCmdNum →
    (∀ v, AutoVar.find vs cmd = some v → table cmd.toNat = v.entry) ∧
      (AutoVar.find vs cmd = none → (table cmd.toNat).regFlag = 0)

/-- Clearing the table while nothing is registered leaves it. -/
theorem Tabled.ensureInit {s : DebugComm} {vs : List AutoVar} (h : Tabled s.varList vs)
    (hinit : s.hasInit = false → vs = []) (req : Option Addr) :
    Tabled (s.ensureInit req).varList vs := by
  rcases hi : s.hasInit with - | -
  · obtain rfl := hinit hi
    intro cmd hcmd
    refine ⟨fun v hv => (by cases hv), fun hnone => ?_⟩
    rw [DebugComm.ensureInit, hi]
    show (if cmd.toNat < maxDirSize then _ else s.varList cmd.toNat).regFlag = 0
    split
    · rfl
    · exact (h cmd hcmd).2 hnone
  · rwa [ensureInit_of_hasInit hi]

/-- A variable more. -/
theorem Tabled.cons {table : ℕ → TVarItem} {vs : List AutoVar} (h : Tabled table vs) (v : AutoVar) :
    Tabled (Function.update table v.cmd.toNat v.entry) (v :: vs) := by
  intro cmd hcmd
  rw [AutoVar.find_cons]
  by_cases hv : v.cmd = cmd
  · subst hv
    rw [if_pos rfl, Function.update_self]
    refine ⟨fun w hw => ?_, fun hnone => (by cases hnone)⟩
    rw [Option.some.inj hw]
  · rw [if_neg hv, Function.update_of_ne fun hc => hv (UInt8.toNat_inj.mp hc.symm)]
    exact h cmd hcmd

/-- Other bytes. -/
theorem Tabled.write {table : ℕ → TVarItem} {vs : List AutoVar} (h : Tabled table vs) (cmd : UInt8)
    (bytes : ℕ → UInt8) : Tabled table (AutoVar.write cmd bytes vs) := by
  intro cmd' hcmd'
  rw [AutoVar.find_write]
  constructor
  · intro v hv
    obtain ⟨w, hw, rfl⟩ := Option.map_eq_some_iff.mp hv
    rw [(h cmd' hcmd').1 w hw]
    split <;> rfl
  · intro hnone
    exact (h cmd' hcmd').2 (Option.map_eq_none_iff.mp hnone)

/-- An entry that is refused. -/
theorem registerAutoVar_of_not_valid (req : Option Addr) (s : DebugComm) {v : TVarItem}
    (hv : ¬ v.Valid) :
    registerAutoVar req s v.cmd v.varSize v.varAddr v.varType = (0, s.ensureInit req) := by
  unfold registerAutoVar
  dsimp only
  split
  · rfl
  split
  · rfl
  split
  · rfl
  · rename_i hcmd hsize haddr
    refine absurd ⟨Nat.not_le.mp hcmd, Nat.not_lt.mp hsize, ?_⟩ hv
    exact Option.isSome_iff_ne_none.mpr fun hnone => haddr (by rw [hnone]; rfl)

/-- The automatic service of a message that is not sent on. -/
theorem serveAuto_of_routed {t : Sys} {src : TDataChan} {msg msg' : TCommMsg} (ack : Bool)
    (h : t.comm.routed src src msg = (src, msg')) :
    serveAuto t ack ⟨src, src, msg, false, []⟩ = match varAutoUpdateService t msg' with
      | none => (t, [])
      | some (t', reply, ev) =>
        (t', ev ++ if ack && src != chanNull then ackCommMsg reply src ack else []) := by
  rcases hauto : varAutoUpdateService t msg' with - | ⟨t', reply, ev⟩
  · simp only [serveAuto, h, if_true, hauto]
  · simp only [serveAuto, h, if_true, hauto]

/-- The bytes written to a reply. -/
theorem scatter_padIndex (pad : Fin 4 → UInt8) (b : ℕ → UInt8) {n : ℕ} (hn : n ≤ 4) :
    scatter pad padIndex b n = fun i => if i.val < n then b i.val else pad i := by
  have hval : ∀ j < 4, (padIndex j).val = j := fun j hj => Nat.mod_eq_of_lt hj
  funext i
  split
  · rename_i hi
    have hat : padIndex i.val = i := Fin.ofNat_val_eq_self i
    have hbyte := scatter_apply (m := pad) (g := padIndex) (b := b) (i := i.val) hi
      fun j hj heq => by
        have hsame := congrArg Fin.val heq
        rwa [hval j (by omega), hval i.val i.isLt] at hsame
    rwa [hat] at hbyte
  · rename_i hi
    refine scatter_of_forall_ne fun j hj heq => hi ?_
    rw [heq, hval j (by omega)]
    exact hj

/-! ### The relation -/

/-- The program stands for the variables. -/
structure Refines (base : Addr → TCmd) (mem : Addr → UInt8) (route : Option RouteTableFunc)
    (s : AutoSys) (vs : List AutoVar) : Prop where
  registered : ∃ acc, Registered base s.sys.comm acc ∧ acc.length ≤ s.items.length ∧
    ∀ a ∈ acc, a ∈ s.items
  handlers : ∀ a ∈ s.items, (base a).func.isSome = true → (base a).cmd.toNat < cmdMax
  route : s.sys.comm.routeFunc = route
  fresh : s.sys.comm.hasInit = false → vs = []
  table : Tabled s.sys.comm.varList vs
  vars : s.vars = vs.map AutoVar.entry
  sizes : ∀ v ∈ vs, v.cmd.toNat < maxCmdNum ∧ v.size.toNat ≤ 4 ∧ v.type &&& varUpdateMemory ≠ 0
  apart : vs.Pairwise fun v w => AutoSys.Apart v.entry w.entry
  holds : ∀ v ∈ vs, ∀ i < v.size.toNat, s.sys.mem (v.addr + i) = v.bytes i
  frame : ∀ a, (∀ v ∈ vs, ¬ v.Covers a) → s.sys.mem a = mem a

namespace Refines

variable {base : Addr → TCmd} {mem : Addr → UInt8} {route : Option RouteTableFunc} {s : AutoSys}
  {vs : List AutoVar} {req : Option Addr}

theorem start (base : Addr → TCmd) (pcfg : ParamCfg) (mem : Addr → UInt8)
    (route : Option RouteTableFunc) :
    Refines base mem route (AutoSys.start base pcfg mem route) [] where
  registered := ⟨[], ⟨(Registered.reset base).object, (Registered.reset base).chain,
    (Registered.reset base).inBounds, (Registered.reset base).fresh⟩, le_rfl, fun _ h => h⟩
  handlers _ h := by cases h
  route := rfl
  fresh _ := rfl
  table _ _ := ⟨fun _ hv => (by cases hv), fun _ => rfl⟩
  vars := rfl
  sizes _ h := by cases h
  apart := .nil
  holds _ h := by cases h
  frame _ _ := rfl

/-- **`RegisterCmd`** leaves the variables. -/
theorem registerCmd (h : Refines base mem route s vs) {a : Addr}
    (hp : s.Proper (.registerCmd a)) :
    ∃ s', s.step req (.registerCmd a) = some (s', []) ∧ Refines base mem route s' vs := by
  obtain ⟨acc, hreg, hlen, hmem⟩ := h.registered
  obtain ⟨p, hobj⟩ := hreg.object a
  obtain ⟨hinit, -, hroute⟩ := registerCmd_statics req s.sys.comm a
  have htable : (Start01.registerCmd req s.sys.comm (some a)).2.varList =
      (s.sys.comm.ensureInit req).varList := by
    rcases registerCmd_cases req s.sys.comm a with ⟨-, hr⟩ | ⟨-, ts, hr⟩ <;> rw [hr]
  refine ⟨_, rfl, ⟨⟨_, hreg.registerCmd req fun ha => hp.1 (hmem a ha), ?_, ?_⟩, ?_,
    hroute.trans h.route, fun hc => ?_, ?_, h.vars, h.sizes, h.apart, h.holds, h.frame⟩⟩
  · rw [List.length_append, List.length_append]
    split <;> simp only [List.length_singleton, List.length_nil] <;> omega
  · intro b hb
    rcases List.mem_append.mp hb with hb | hb
    · exact List.mem_append_left _ (hmem b hb)
    · split at hb
      · exact List.mem_append_right _ hb
      · cases hb
  · intro b hb hfunc
    rcases List.mem_append.mp hb with hb | hb
    · exact h.handlers b hb hfunc
    · obtain rfl := List.mem_singleton.mp hb
      have hcmd := hp.2
      rw [hobj] at hcmd
      exact hcmd hfunc
  · rw [hinit] at hc
    cases hc
  · show Tabled (Start01.registerCmd req s.sys.comm (some a)).2.varList vs
    rw [htable]
    exact h.table.ensureInit h.fresh req

/-- The first call clears the tables, which are empty then. -/
theorem ensureInit (h : Refines base mem route s vs) (req : Option Addr) :
    Refines base mem route { s with
      sys := { s.sys with comm := s.sys.comm.ensureInit req } } vs := by
  obtain ⟨acc, hreg, hlen, hmem⟩ := h.registered
  refine ⟨⟨acc, hreg.ensureInit req, hlen, hmem⟩, h.handlers, ?_, fun hc => ?_,
    h.table.ensureInit h.fresh req, h.vars, h.sizes, h.apart, h.holds, h.frame⟩
  · exact (ensureInit_routeFunc req s.sys.comm).trans h.route
  · rw [show (s.sys.comm.ensureInit req).hasInit = true from ensureInit_hasInit req _] at hc
    cases hc

/-- A variable more, apart from the others, which holds what is in memory. -/
theorem cons (h : Refines base mem route s vs) (hinit : s.sys.comm.hasInit = true) (v : AutoVar)
    (hsize : v.cmd.toNat < maxCmdNum ∧ v.size.toNat ≤ 4 ∧ v.type &&& varUpdateMemory ≠ 0)
    (hbytes : v.bytes = fun i => mem (v.addr + i))
    (hapart : ∀ w ∈ s.vars, AutoSys.Apart v.entry w) :
    Refines base mem route { s with
      sys := { s.sys with comm := { s.sys.comm with
        varList := Function.update s.sys.comm.varList v.cmd.toNat v.entry } }
      vars := v.entry :: s.vars } (v :: vs) := by
  obtain ⟨acc, hreg, hlen, hmem⟩ := h.registered
  have hothers : ∀ w ∈ vs, AutoSys.Apart v.entry w.entry := fun w hw => by
    apply hapart
    rw [h.vars]
    exact List.mem_map_of_mem hw
  refine ⟨⟨acc, ⟨hreg.object, hreg.chain, hreg.inBounds, hreg.fresh⟩, hlen, hmem⟩, h.handlers,
    h.route, fun hc => ?_, h.table.cons v, congrArg (List.cons _) h.vars,
    List.forall_mem_cons.mpr ⟨hsize, h.sizes⟩, List.pairwise_cons.mpr ⟨hothers, h.apart⟩,
    List.forall_mem_cons.mpr ⟨fun i hi => ?_, h.holds⟩, fun a ha => ?_⟩
  · rw [hinit] at hc
    cases hc
  · -- no variable so far has the byte
    rw [hbytes]
    refine h.frame _ fun w hw hcov => ?_
    obtain ⟨j, hj, heq⟩ := hcov
    exact hothers w hw v.addr rfl w.addr rfl i hi j hj heq
  · exact h.frame a (List.forall_mem_cons.mp ha).2

/-- **`RegisterAutoVar`** is a variable more, or nothing. -/
theorem registerAutoVar (h : Refines base mem route s vs) (req : Option Addr)
    {cmd varSize varType : UInt8} {varAddr : Option Addr} (hp : s.Proper (.registerAutoVar cmd varSize varAddr varType)) :
    ∃ s', s.step req (.registerAutoVar cmd varSize varAddr varType) = some (s', []) ∧
      Refines base mem route s'
        (AutoVar.step mem route vs (.registerAutoVar cmd varSize varAddr varType)).1 := by
  refine ⟨_, rfl, ?_⟩
  have hens := h.ensureInit req
  by_cases hv : (⟨cmd, varSize, varAddr, varType, 1⟩ : TVarItem).Valid
  · have hr := registerAutoVar_of_valid req (ensureInit_hasInit req s.sys.comm) hv
    rw [← registerAutoVar_ensureInit] at hr
    obtain ⟨hcmd, hsize, haddr⟩ := hv
    obtain ⟨p, rfl⟩ := Option.isSome_iff_exists.mp haddr
    have hspec : (AutoVar.step mem route vs (.registerAutoVar cmd varSize (some p) varType)).1 =
        ⟨cmd, varSize, p, varType, fun i => mem (p + i)⟩ :: vs := by
      rw [AutoVar.step, if_pos ⟨hcmd, hsize⟩]
    simp only [hr, hspec, if_true]
    exact hens.cons (ensureInit_hasInit req s.sys.comm)
      ⟨cmd, varSize, p, varType, fun i => mem (p + i)⟩ ⟨hcmd, hsize, hp.1⟩ rfl hp.2
  · have hr := registerAutoVar_of_not_valid req s.sys.comm hv
    have hspec : (AutoVar.step mem route vs (.registerAutoVar cmd varSize varAddr varType)).1 = vs := by
      cases varAddr with
      | none => rfl
      | some p => rw [AutoVar.step, if_neg fun hc => hv ⟨hc.1, hc.2, rfl⟩]
    simp only [hr, hspec, show ¬ (0 : UInt8) = 1 by decide, if_false]
    exact hens

/-- Where no handler is registered the walk along the chain does nothing. -/
theorem cmdService_eq (h : Refines base mem route s vs) {src : TDataChan} {msg : TCommMsg}
    {ack : Bool} (hp : s.Proper (.message src msg ack)) (hinit : s.sys.comm.hasInit = true) :
    cmdService s.items.length s.sys src msg ack =
      some (finishService (s.sys.touchAt (slot msg.dir.toNat msg.cmd.toNat)) ack
        ⟨src, src, msg, false, []⟩) := by
  obtain ⟨hcmd, hdir, -, hnone⟩ := hp
  obtain ⟨acc, hreg, hlen, hmem⟩ := h.registered
  have hdirs : msg.dir.toNat < maxDirSize := by
    rcases hdir with hd | hd <;> rw [hd] <;> decide
  have hguard : (s.sys.comm.hasInit && guarded msg.dir msg.cmd) = true := by
    rw [hinit, guarded, Bool.true_and, Bool.and_eq_true, decide_eq_true_iff, decide_eq_true_iff]
    exact ⟨hdirs, hcmd.trans (by decide)⟩
  let chain := (acc.filter fun a => (base a).slot == slot msg.dir.toNat msg.cmd.toNat).reverse
  have hidle : ∀ a ∈ chain, (s.sys.comm.tcmd a).func = none := by
    intro a ha
    obtain ⟨hacc, hslot⟩ := List.mem_filter.mp (List.mem_reverse.mp ha)
    obtain ⟨q, hobj⟩ := hreg.object a
    rw [beq_iff_eq, TCmd.slot, slot, slot] at hslot
    by_contra hfunc
    have hsome : (base a).func.isSome = true := by
      rw [hobj] at hfunc
      exact Option.isSome_iff_ne_none.mpr hfunc
    have hbound := h.handlers a (hmem a hacc) hsome
    -- below `CMD_MAX` the slot determines the pair
    simp only [cmdMax] at hslot hbound hcmd
    refine hfunc (hnone a (hmem a hacc) ?_)
    rw [hobj, TCmd.isFor, Bool.and_eq_true, beq_iff_eq, beq_iff_eq, ← UInt8.toNat_inj,
      ← UInt8.toNat_inj]
    constructor
    · show (base a).dir.toNat = msg.dir.toNat
      omega
    · show (base a).cmd.toNat = msg.cmd.toNat
      omega
  have hfuel : chain.length ≤ s.items.length := by
    rw [List.length_reverse]
    exact (List.length_filter_le _ acc).trans hlen
  rw [cmdService_of_guard hguard, (hreg.chain _).walk_eq _ _ hfuel,
    foldl_serveItem_of_no_handler hidle, Option.map_some]

/-- What the route function leaves of a message that it does not send on. -/
theorem routed_eq (h : Refines base mem route s vs) {src : TDataChan} {msg : TCommMsg}
    (hsrc : (s.sys.comm.routed src src msg).1 = src) :
    s.sys.comm.routed src src msg = (src, routedMsg route src msg) := by
  refine Prod.ext hsrc ?_
  rw [DebugComm.routed, h.route]
  cases route <;> rfl

/-- A message to a command without a variable is not served. -/
theorem varAuto_none (h : Refines base mem route s vs) {t : Sys}
    (ht : t.comm.varList = s.sys.comm.varList) {msg : TCommMsg}
    (hserve : AutoVar.serve vs msg = none) : varAutoUpdateService t msg = none := by
  by_contra hsome
  obtain ⟨⟨t', reply, ev⟩, heq⟩ := Option.ne_none_iff_exists'.mp hsome
  obtain ⟨hcmd, hdir, hreg, -, -⟩ := varAutoUpdateService_eq_some heq
  rw [ht] at hreg
  rcases hfind : AutoVar.find vs msg.cmd with - | v
  · exact hreg ((h.table msg.cmd hcmd).2 hfind)
  · rw [AutoVar.serve, hfind] at hserve
    rcases hdir with hd | hd
    · simp only [if_pos hd] at hserve
      cases hserve
    · simp only [hd, if_true] at hserve
      split at hserve <;> cases hserve

/-- A variable that is found is served from its entry. -/
theorem varAuto_some (h : Refines base mem route s vs) {t : Sys}
    (ht : t.comm.varList = s.sys.comm.varList) {msg : TCommMsg} {v : AutoVar}
    (hfind : AutoVar.find vs msg.cmd = some v)
    (hdir : msg.dir = TCmdDir.dirRead.code ∨ msg.dir = TCmdDir.dirWrite.code) :
    varAutoUpdateService t msg = some (serveVar t msg v.entry v.addr) := by
  obtain ⟨hv, hcmd⟩ := AutoVar.find_eq_some hfind
  obtain ⟨hlt, hsize, -⟩ := h.sizes v hv
  rw [hcmd] at hlt
  have hentry : t.comm.varList msg.cmd.toNat = v.entry := by
    rw [ht]
    exact (h.table msg.cmd hlt).1 v hfind
  have hdirs : ¬ (msg.dir ≠ TCmdDir.dirRead.code ∧ msg.dir ≠ TCmdDir.dirWrite.code) := by tauto
  simp only [varAutoUpdateService, if_neg (Nat.not_le.mpr hlt), if_neg hdirs, hentry]
  rw [if_neg (show ¬ v.entry.regFlag = 0 from (by decide : ¬ (1 : UInt8) = 0))]
  exact if_neg (Nat.not_lt.mpr hsize)

/-- **A read** replies with the bytes of the variable. -/
theorem serveVar_read (h : Refines base mem route s vs) {t : Sys} (hmem : t.mem = s.sys.mem)
    {msg : TCommMsg} {v : AutoVar} (hv : v ∈ vs) (hdir : msg.dir = TCmdDir.dirRead.code) :
    serveVar t msg v.entry v.addr = (t, { msg with
      pad := fun i => if i.val < v.size.toNat then v.bytes i.val else msg.pad i }, []) := by
  obtain ⟨-, hsize, htype⟩ := h.sizes v hv
  have hne : ¬ msg.dir = TCmdDir.dirWrite.code := by
    rw [hdir]
    decide
  have hpad : scatter msg.pad padIndex (fun i => t.mem (v.addr + i)) v.size.toNat =
      fun i => if i.val < v.size.toNat then v.bytes i.val else msg.pad i := by
    rw [scatter_padIndex _ _ hsize]
    funext i
    split
    · rename_i hi
      rw [hmem, h.holds v hv i.val hi]
    · rfl
  unfold serveVar
  rw [if_neg hne, if_pos (show v.entry.varType &&& varUpdateMemory ≠ 0 from htype)]
  show (t, { msg with pad := scatter msg.pad padIndex (fun i => t.mem (v.addr + i)) v.size.toNat },
    _) = _
  rw [hpad]

/-- **A write** stores the bytes of the message to the variable, and to the parameter device
where it is also in flash. -/
theorem serveVar_write (h : Refines base mem route s vs) (t : Sys) {msg : TCommMsg} {v : AutoVar}
    (hv : v ∈ vs) (hdir : msg.dir = TCmdDir.dirWrite.code) :
    ∃ pcfg ev, serveVar t msg v.entry v.addr = ({ t with
      mem := scatter t.mem (fun i => v.addr + i) msg.padAt v.size.toNat, pcfg := pcfg }, msg, ev) ∧
        ev.filterMap Event.reply? = [] := by
  obtain ⟨-, -, htype⟩ := h.sizes v hv
  unfold serveVar
  rw [if_pos hdir, if_pos (show v.entry.varType &&& varUpdateMemory ≠ 0 from htype)]
  by_cases hflash : v.entry.varType &&& varUpdateFlash ≠ 0
  · rw [if_pos hflash]
    exact ⟨_, _, rfl, rfl⟩
  · rw [if_neg hflash]
    exact ⟨t.pcfg, [], rfl, rfl⟩

/-- The variables do not depend on what was read of the table of commands. -/
theorem touched (h : Refines base mem route s vs) (ts : List ℕ) :
    Refines base mem route { s with
      sys := { s.sys with comm := { s.sys.comm with touched := ts } } } vs := by
  obtain ⟨acc, hreg, hlen, hmem⟩ := h.registered
  exact ⟨⟨acc, ⟨hreg.object, hreg.chain, hreg.inBounds, hreg.fresh⟩, hlen, hmem⟩, h.handlers,
    h.route, h.fresh, h.table, h.vars, h.sizes, h.apart, h.holds, h.frame⟩

/-- **New bytes** in the variable of a command, and in no other. -/
theorem write (h : Refines base mem route s vs) {cmd : UInt8} {v : AutoVar}
    (hfind : AutoVar.find vs cmd = some v) (bytes : ℕ → UInt8) (pcfg : ParamCfg) :
    Refines base mem route { s with
      sys := { s.sys with
        mem := scatter s.sys.mem (fun i => v.addr + i) bytes v.size.toNat
        pcfg := pcfg } } (AutoVar.write cmd bytes vs) := by
  have hmap := AutoVar.map_entry_write cmd bytes vs
  have hsymm : ∀ u w : AutoVar, AutoSys.Apart u.entry w.entry → AutoSys.Apart w.entry u.entry :=
    fun u w hR p hp q hq i hi j hj heq => hR q hq p hp j hj i hi heq.symm
  refine ⟨h.registered, h.handlers, h.route, fun hc => ?_, h.table.write cmd bytes,
    h.vars.trans hmap.symm, ?_, ?_, fun w hw i hi => ?_, fun a ha => ?_⟩
  · rw [h.fresh hc]
    rfl
  · exact AutoVar.forall_entry (P := fun e => e.cmd.toNat < maxCmdNum ∧ e.varSize.toNat ≤ 4 ∧
      e.varType &&& varUpdateMemory ≠ 0) hmap h.sizes
  · rw [← List.pairwise_map, hmap, List.pairwise_map]
    exact h.apart
  · show scatter s.sys.mem (fun i => v.addr + i) bytes v.size.toNat (w.addr + i) = w.bytes i
    rcases AutoVar.mem_write hsymm h.apart hfind hw with rfl | ⟨hold, hvw⟩
    · exact scatter_apply hi fun j _ heq => Nat.add_left_cancel heq
    · -- the bytes of another variable are not written
      have hne : ∀ j < v.size.toNat, w.addr + i ≠ v.addr + j := fun j hj =>
        (hvw v.addr rfl w.addr rfl j hj i hi).symm
      rw [scatter_of_forall_ne hne]
      exact h.holds w hold i hi
  · have hcov : ∀ w ∈ vs, ¬ w.Covers a := by
      simp only [AutoVar.covers_iff] at ha ⊢
      exact AutoVar.forall_entry (P := fun e => ¬ ∃ p ∈ e.varAddr, ∃ i < e.varSize.toNat, a = p + i)
        hmap.symm ha
    show scatter s.sys.mem (fun i => v.addr + i) bytes v.size.toNat a = mem a
    rw [scatter_of_forall_ne fun i hi heq => hcov v (AutoVar.find_eq_some hfind).1 ⟨i, hi, heq⟩]
    exact h.frame a hcov

/-- A message without a variable changes only the ghost of what was read of the table. -/
theorem message_none (h : Refines base mem route s vs) {src : TDataChan} {msg : TCommMsg}
    {ack : Bool} (hp : s.Proper (.message src msg ack))
    (hserve : AutoVar.serve vs (routedMsg route src msg) = none) :
    ∃ ret ts, cmdService s.items.length s.sys src msg ack =
      some (ret, { s.sys with comm := { s.sys.comm with touched := ts } }, []) := by
  rcases hinit : s.sys.comm.hasInit with - | -
  · exact ⟨false, s.sys.comm.touched, cmdService_of_not_guard (by rw [hinit]; rfl) _ src ack⟩
  · let t := s.sys.touchAt (slot msg.dir.toNat msg.cmd.toNat)
    have hauto := serveAuto_of_routed (t := t) ack (h.routed_eq hp.2.2.1)
    rw [h.varAuto_none (t := t) rfl hserve] at hauto
    refine ⟨true, t.comm.touched, ?_⟩
    rw [h.cmdService_eq hp hinit, finishService, if_neg Bool.false_ne_true, hauto]
    rfl

/-- A message to a variable. -/
theorem message_some (h : Refines base mem route s vs) {src : TDataChan} {msg : TCommMsg}
    {ack : Bool} (hp : s.Proper (.message src msg ack)) {vs' : List AutoVar} {reply : TCommMsg}
    (hserve : AutoVar.serve vs (routedMsg route src msg) = some (vs', reply)) :
    ∃ t ev, cmdService s.items.length s.sys src msg ack =
        some (true, t, ev ++ if ack && src != chanNull then ackCommMsg reply src ack else []) ∧
      ev.filterMap Event.reply? = [] ∧ Refines base mem route { s with sys := t } vs' := by
  have hroute := h.routed_eq hp.2.2.1
  set msg' := routedMsg route src msg
  rcases hfind : AutoVar.find vs msg'.cmd with - | v
  · rw [AutoVar.serve, hfind] at hserve
    cases hserve
  have hv := (AutoVar.find_eq_some hfind).1
  have hinit : s.sys.comm.hasInit = true := by
    by_contra hc
    rw [h.fresh (Bool.eq_false_iff.mpr hc)] at hv
    cases hv
  let t := s.sys.touchAt (slot msg.dir.toNat msg.cmd.toNat)
  have ht : Refines base mem route { s with sys := t } vs := h.touched _
  have hauto := serveAuto_of_routed (t := t) ack hroute
  rw [h.cmdService_eq hp hinit, finishService, if_neg Bool.false_ne_true]
  rw [AutoVar.serve, hfind] at hserve
  by_cases hread : msg'.dir = TCmdDir.dirRead.code
  · simp only [if_pos hread, Option.some.injEq, Prod.mk.injEq] at hserve
    obtain ⟨rfl, rfl⟩ := hserve
    rw [h.varAuto_some (t := t) rfl hfind (.inl hread), h.serveVar_read (t := t) rfl hv hread] at hauto
    refine ⟨t, [], ?_, rfl, ht⟩
    rw [hauto]
    rfl
  by_cases hwrite : msg'.dir = TCmdDir.dirWrite.code
  · simp only [if_neg hread, if_pos hwrite, Option.some.injEq, Prod.mk.injEq] at hserve
    obtain ⟨rfl, rfl⟩ := hserve
    obtain ⟨pcfg, ev, heff, hev⟩ := h.serveVar_write t hv hwrite
    rw [h.varAuto_some (t := t) rfl hfind (.inr hwrite), heff] at hauto
    refine ⟨_, ev, ?_, hev, ht.write hfind msg'.padAt pcfg⟩
    rw [hauto]
    rfl
  · simp only [if_neg hread, if_neg hwrite] at hserve
    cases hserve

/-- **A message** is one to the map. -/
theorem message (h : Refines base mem route s vs) {src : TDataChan} {msg : TCommMsg} {ack : Bool}
    (hp : s.Proper (.message src msg ack)) :
    ∃ s', s.step req (.message src msg ack) =
        some (s', (AutoVar.step mem route vs (.message src msg ack)).2) ∧
      Refines base mem route s' (AutoVar.step mem route vs (.message src msg ack)).1 := by
  rcases hserve : AutoVar.serve vs (routedMsg route src msg) with - | ⟨vs', reply⟩
  · obtain ⟨ret, ts, heq⟩ := h.message_none hp hserve
    simp only [AutoSys.step, heq, AutoVar.step, hserve]
    exact ⟨_, rfl, h.touched ts⟩
  · obtain ⟨t, ev, heq, hev, ht⟩ := h.message_some hp hserve
    simp only [AutoSys.step, heq, AutoVar.step, hserve, Option.map_some, List.filterMap_append, hev]
    refine ⟨_, ?_, ht⟩
    rcases hcond : ack && src != chanNull with - | -
    · rfl
    · rw [(Bool.and_eq_true_iff.mp hcond).1]
      rfl

/-- **One step** is one on the map. -/
theorem step (h : Refines base mem route s vs) {op : AutoOp} (hp : s.Proper op) :
    ∃ s', s.step req op = some (s', (AutoVar.step mem route vs op).2) ∧
      Refines base mem route s' (AutoVar.step mem route vs op).1 := by
  cases op with
  | registerCmd a => exact h.registerCmd hp
  | registerAutoVar cmd varSize varAddr varType =>
    obtain ⟨s', hs', h'⟩ := h.registerAutoVar req hp
    refine ⟨s', hs'.trans ?_, h'⟩
    cases varAddr with
    | none => rfl
    | some p =>
      rw [AutoVar.step]
      split <;> rfl
  | message src msg ack => exact h.message hp

end Refines

end Start01
