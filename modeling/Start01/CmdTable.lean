/-
Start01/CmdTable.lean

Registration and dispatch.  A history is a sequence of calls of `RegisterCmd` and
`RegisterCmdList` and of messages, in any order; its outputs are the items that
were accepted.

The invariant (`Registered`) is that every cell of the flat table heads a chain
of the accepted items whose slot it is, newest first.  As the slot of an item is
`dir * CMD_MAX + cmd` with `cmd` up to 127 and only 23 columns, items of
different pairs share a cell, and a message is served by all of them:

* `dispatchExact_iff` — a message is dispatched to the items of its own pair iff
  no accepted item with a handler shares the cell under another pair;
* `inTable_iff` — the first item that is registered sends `Init_CmdList` over
  the end of the table, up to index 196 of 92.
-/
import Start01.Comm
import Start01.Lib.Run

namespace Start01

open Linked

/-! ### Histories -/

/-- A registration call or a message. -/
inductive CmdOp
  | registerCmd (item : Option Addr)
  | registerCmdList (base : Addr) (size : UInt8)
  | message (src : TDataChan) (msg : TCommMsg) (ack : Bool)

/-- The items a call registers. -/
def CmdOp.items : CmdOp → List Addr
  | .registerCmd item => item.toList
  | .registerCmdList base size => (List.range size.toNat).map fun i => base + i
  | .message _ _ _ => []

/-- The items for which `RegisterCmd` returns 1 when they are registered one
after the other. -/
def acceptedBy (req : Option Addr) (s : DebugComm) : List Addr → List Addr
  | [] => []
  | a :: as =>
      let r := registerCmd req s (some a)
      (if r.1 = 1 then [a] else []) ++ acceptedBy req r.2 as

/-- One step of a history. -/
def cmdStep (fuel : ℕ) (req : Option Addr) (s : Sys) : CmdOp → Option (Sys × List Addr)
  | .registerCmd item =>
      some ({ s with comm := (registerCmd req s.comm item).2 }, acceptedBy req s.comm item.toList)
  | .registerCmdList base size =>
      some ({ s with comm := (registerCmdList req s.comm base size).2 },
        acceptedBy req s.comm ((List.range size.toNat).map fun i => base + i))
  | .message src msg ack => (cmdService fuel s src msg ack).map fun r => (r.2.1, [])

/-- An item is registered for the pair of the message. -/
def TCmd.isFor (c : TCmd) (msg : TCommMsg) : Bool := c.dir == msg.dir && c.cmd == msg.cmd

/-- The message is dispatched to exactly the accepted items of its own pair that
have a handler, each once, the last one registered first. -/
def DispatchExact (fuel : ℕ) (s : Sys) (accepted : List Addr) (src : TDataChan) (msg : TCommMsg)
    (ack : Bool) : Prop :=
  ∃ ret s' ev, cmdService fuel s src msg ack = some (ret, s', ev) ∧
    handlersRun ev
      = (accepted.filter fun a =>
          (s.comm.tcmd a).isFor msg && (s.comm.tcmd a).func.isSome).reverse

/-- Neither the history so far nor the service of the message touches an element
outside the declared table. -/
def InTable (fuel : ℕ) (s : Sys) (src : TDataChan) (msg : TCommMsg) (ack : Bool) : Prop :=
  ∃ ret s' ev, cmdService fuel s src msg ack = some (ret, s', ev) ∧
    ∀ k ∈ s'.comm.touched, k < tableSize

/-! ### The invariant -/

/-- The state after the items of `acc` were accepted, in this order, over the
objects `base`. -/
structure Registered (base : Addr → TCmd) (s : DebugComm) (acc : List Addr) : Prop where
  object : ∀ a, ∃ p, s.tcmd a = { base a with next := p }
  chain : ∀ k, Chain (fun a => (s.tcmd a).next) (s.cmdlist k)
    (acc.filter fun a => (base a).slot == k).reverse
  inBounds : ∀ a ∈ acc, guarded (base a).dir (base a).cmd = true
  fresh : s.hasInit = false → acc = []

theorem Registered.reset (base : Addr → TCmd) : Registered base (DebugComm.reset base) [] where
  object a := ⟨(base a).next, rfl⟩
  chain _ := rfl
  inBounds _ h := by cases h
  fresh _ := rfl

/-- Initialisation keeps the chains. -/
theorem Registered.ensureInit {base : Addr → TCmd} {s : DebugComm} {acc : List Addr}
    (h : Registered base s acc) (req : Option Addr) :
    Registered base (s.ensureInit req) acc where
  object a := by rw [ensureInit_tcmd]; exact h.object a
  chain k := by
    have hempty : s.hasInit = false → s.cmdlist k = none := by
      intro hinit
      have hchain := h.chain k
      rw [h.fresh hinit] at hchain
      exact hchain
    rw [ensureInit_tcmd, ensureInit_cmdlist hempty]
    exact h.chain k
  inBounds := h.inBounds
  fresh hinit := by rw [ensureInit_hasInit] at hinit; cases hinit

/-- Linking one object in changes one link. -/
theorem next_update (tcmd : Addr → TCmd) (a : Addr) (p : Option Addr) :
    (fun b => (Function.update tcmd a { tcmd a with next := p } b).next)
      = Function.update (fun b => (tcmd b).next) a p :=
  Function.comp_update TCmd.next tcmd a _

/-- **Registration step.**  A new item that is accepted is added to the list. -/
theorem Registered.registerCmd {base : Addr → TCmd} {s : DebugComm} {acc : List Addr}
    (h : Registered base s acc) (req : Option Addr) {a : Addr} (ha : a ∉ acc) :
    Registered base (registerCmd req s (some a)).2
      (acc ++ if (Start01.registerCmd req s (some a)).1 = 1 then [a] else []) := by
  have hi := h.ensureInit req
  obtain ⟨p, hp⟩ := h.object a
  rcases registerCmd_cases req s a with ⟨-, hr⟩ | ⟨hg, ts, hr⟩
  · rw [hr, if_neg (show ¬ (0 : UInt8) = 1 by decide), List.append_nil]
    exact hi
  · rw [hr, if_pos rfl]
    have hslot : (s.tcmd a).slot = (base a).slot := by rw [hp]; rfl
    have hobject := registerCmd_object h.object req a
    rw [hr] at hobject
    refine ⟨hobject, fun k => ?_, fun b hb => ?_, fun hinit => ?_⟩
    · -- the new object is in no chain yet; it becomes the head of its own
      have hnext := next_update s.tcmd a ((s.ensureInit req).cmdlist (s.tcmd a).slot)
      have hchain := hi.chain
      rw [ensureInit_tcmd] at hchain
      have hnotin : ∀ k, a ∉ (acc.filter fun b => (base b).slot == k).reverse := by
        intro k hmem
        exact ha (List.mem_of_mem_filter (List.mem_reverse.mp hmem))
      show Chain _ (Function.update (s.ensureInit req).cmdlist (s.tcmd a).slot (some a) k) _
      rw [hnext, List.filter_append, List.reverse_append]
      by_cases hk : k = (s.tcmd a).slot
      · subst hk
        rw [Function.update_self, List.filter_singleton, ← hslot, beq_self_eq_true, cond_true]
        exact (hchain _).push (hnotin _)
      · have hne : ((base a).slot == k) = false := by
          rw [← hslot]; exact beq_eq_false_iff_ne.mpr (Ne.symm hk)
        rw [Function.update_of_ne hk, List.filter_singleton, hne, cond_false]
        exact (hchain k).frame (hnotin k) _
    · rcases List.mem_append.mp hb with hb | hb
      · exact h.inBounds b hb
      · rw [List.mem_singleton.mp hb]
        rw [hp] at hg
        exact hg
    · rw [ensureInit_hasInit] at hinit
      cases hinit

/-- Only the record of accesses may differ. -/
theorem Registered.of_comm_eq {base : Addr → TCmd} {s s' : DebugComm} {acc : List Addr}
    (h : Registered base s acc) {ts : List ℕ} (hs : s' = { s with touched := ts }) :
    Registered base s' acc := by
  subst hs
  exact ⟨h.object, h.chain, h.inBounds, h.fresh⟩

/-! ### Dispatch -/

theorem serveItem_handlersRun (s : DebugComm) (ack : Bool) (st : SvcState) (a : Addr) :
    handlersRun (serveItem s ack st a).events
      = handlersRun st.events ++ [a].filter fun a => (s.tcmd a).func.isSome := by
  unfold serveItem
  rcases hf : (s.tcmd a).func with - | f
  · simp [hf]
  · -- the reply behind the call is no handler
    have hacked : ∀ (c : Bool) (m : TCommMsg) (d : TDataChan),
        handlersRun (if c then ackCommMsg m d ack else []) = [] := by
      intro c m d
      unfold ackCommMsg
      split_ifs <;> rfl
    dsimp only
    rw [handlersRun, List.filterMap_append, List.filterMap_cons]
    dsimp only [Event.handler?]
    rw [← handlersRun, ← handlersRun, hacked]
    simp [hf]

/-- The walk over a chain calls the handlers of its objects, in order. -/
theorem foldl_serveItem_handlersRun (s : DebugComm) (ack : Bool) (l : List Addr) :
    ∀ st, handlersRun (l.foldl (serveItem s ack) st).events
      = handlersRun st.events ++ l.filter fun a => (s.tcmd a).func.isSome := by
  induction l with
  | nil => intro st; simp
  | cons a l ih =>
    intro st
    rw [List.foldl_cons, ih, serveItem_handlersRun, List.append_assoc, ← List.filter_append,
      List.singleton_append]

/-- Objects without a function are passed over. -/
theorem foldl_serveItem_of_no_handler {s : DebugComm} {ack : Bool} {l : List Addr}
    (h : ∀ a ∈ l, (s.tcmd a).func = none) {st : SvcState} : l.foldl (serveItem s ack) st = st := by
  induction l with
  | nil => rfl
  | cons a l ih =>
    rw [List.forall_mem_cons] at h
    rw [List.foldl_cons, serveItem, h.1]
    exact ih h.2

theorem serveAuto_handlersRun (s : Sys) (ack : Bool) (st : SvcState) :
    handlersRun (serveAuto s ack st).2 = [] := by
  have hack : ∀ m d, handlersRun (ackCommMsg m d ack) = [] := by
    intro m d
    unfold ackCommMsg
    split_ifs <;> rfl
  have hvar : ∀ m v p, handlersRun (serveVar s m v p).2.2 = [] := by
    intro m v p
    unfold serveVar
    dsimp only
    split_ifs <;> rfl
  unfold serveAuto
  dsimp only
  split
  · split
    · rfl
    · rename_i s' msg' ev h
      -- the automatic service runs no handler, and neither does the acknowledgment
      obtain ⟨-, -, -, -, p, -, hserve⟩ := varAutoUpdateService_eq_some h
      have hev := hvar (s.comm.routed st.src st.dest st.msg).2
        (s.comm.varList (s.comm.routed st.src st.dest st.msg).2.cmd.toNat) p
      rw [hserve] at hev
      rw [handlersRun, List.filterMap_append, ← handlersRun, ← handlersRun, hev]
      split_ifs
      · exact hack _ _
      · rfl
  · exact hack _ _

theorem finishService_handlersRun (s : Sys) (ack : Bool) (st : SvcState) :
    handlersRun (finishService s ack st).2.2 = handlersRun st.events := by
  unfold finishService
  split
  · rfl
  · show handlersRun (st.events ++ (serveAuto s ack st).2) = _
    rw [handlersRun, List.filterMap_append, ← handlersRun, ← handlersRun, serveAuto_handlersRun,
      List.append_nil]

/-- **Dispatch.**  `Cmd_Service` returns, and calls the handlers of the accepted
items in the slot of the message, the last one registered first. -/
theorem Registered.cmdService {base : Addr → TCmd} {s : Sys} {acc : List Addr}
    (h : Registered base s.comm acc) {fuel : ℕ} (hfuel : acc.length ≤ fuel) (src : TDataChan)
    (msg : TCommMsg) (ack : Bool) :
    ∃ ret s' ev, cmdService fuel s src msg ack = some (ret, s', ev) ∧
      handlersRun ev = if guarded msg.dir msg.cmd then
        (acc.filter fun a => (base a).func.isSome
          && (base a).slot == slot msg.dir.toNat msg.cmd.toNat).reverse else [] := by
  rcases hgo : s.comm.hasInit && guarded msg.dir msg.cmd with - | -
  · refine ⟨_, _, _, cmdService_of_not_guard hgo fuel src ack, ?_⟩
    rcases Bool.and_eq_false_iff.mp hgo with hinit | hg
    · rw [h.fresh hinit]
      exact (ite_self _).symm
    · rw [hg]
      rfl
  · have hg := (Bool.and_eq_true_iff.mp hgo).2
    -- one step of fuel for each object of the chain
    have hlen : (acc.filter fun a => (base a).slot == slot msg.dir.toNat msg.cmd.toNat).reverse.length
        ≤ fuel := by
      rw [List.length_reverse]
      exact (List.length_filter_le _ acc).trans hfuel
    have hwalk := (h.chain (slot msg.dir.toNat msg.cmd.toNat)).walk_eq
      (serveItem s.comm ack) ⟨src, src, msg, false, []⟩ hlen
    have hfunc : (fun a => (s.comm.tcmd a).func.isSome) = fun a => (base a).func.isSome := by
      funext a
      obtain ⟨p, hp⟩ := h.object a
      rw [hp]
    refine ⟨_, _, _, by rw [cmdService_of_guard hgo, hwalk, Option.map_some], ?_⟩
    rw [finishService_handlersRun, foldl_serveItem_handlersRun, hfunc, List.filter_reverse,
      List.filter_filter, if_pos hg]
    rfl

/-- A pair determines its slot. -/
theorem TCmd.isFor.slot_eq {c : TCmd} {msg : TCommMsg} (h : c.isFor msg = true) :
    c.slot = Start01.slot msg.dir.toNat msg.cmd.toNat := by
  obtain ⟨hd, hc⟩ := Bool.and_eq_true_iff.mp h
  rw [TCmd.slot, eq_of_beq hd, eq_of_beq hc]

/-- The handlers with the slot of a message are those for the message iff no other
pair shares the slot. -/
theorem filter_slot_eq_iff {base : Addr → TCmd} {acc : List Addr} {msg : TCommMsg} :
    (acc.filter fun a => (base a).func.isSome && (base a).slot == slot msg.dir.toNat msg.cmd.toNat)
        = (acc.filter fun a => (base a).isFor msg && (base a).func.isSome) ↔
      ∀ a ∈ acc, (base a).func.isSome = true →
        (base a).slot = slot msg.dir.toNat msg.cmd.toNat → (base a).isFor msg = true := by
  constructor
  · intro heq a ha hf hslot
    have hmem : a ∈ acc.filter fun a => (base a).func.isSome
        && (base a).slot == slot msg.dir.toNat msg.cmd.toNat :=
      List.mem_filter.mpr ⟨ha, by rw [hf, hslot, beq_self_eq_true]; rfl⟩
    rw [heq] at hmem
    exact (Bool.and_eq_true_iff.mp (List.mem_filter.mp hmem).2).1
  · intro hshare
    refine List.filter_congr fun a ha => ?_
    rcases hf : (base a).func.isSome with - | -
    · rw [Bool.false_and, Bool.and_false]
    · rw [Bool.true_and, Bool.and_true, Bool.eq_iff_iff, beq_iff_eq]
      exact ⟨hshare a ha hf, TCmd.isFor.slot_eq⟩

/-- **When a message is dispatched exactly**: no accepted item with a handler shares
the cell of the message under another pair. -/
theorem dispatchExact_iff {base : Addr → TCmd} {s : Sys} {acc : List Addr}
    (h : Registered base s.comm acc) {fuel : ℕ} (hfuel : acc.length ≤ fuel) (src : TDataChan)
    (msg : TCommMsg) (ack : Bool) :
    DispatchExact fuel s acc src msg ack ↔
      (guarded msg.dir msg.cmd = true → ∀ a ∈ acc, (base a).func.isSome = true →
        (base a).slot = slot msg.dir.toNat msg.cmd.toNat → (base a).isFor msg = true) := by
  obtain ⟨ret, s', ev, hserve, hrun⟩ := h.cmdService hfuel src msg ack
  have hobj : (fun a => (s.comm.tcmd a).isFor msg && (s.comm.tcmd a).func.isSome)
      = fun a => (base a).isFor msg && (base a).func.isSome := by
    funext a
    obtain ⟨p, hp⟩ := h.object a
    rw [hp]
    rfl
  have hexact : DispatchExact fuel s acc src msg ack ↔
      handlersRun ev = (acc.filter fun a => (base a).isFor msg && (base a).func.isSome).reverse := by
    unfold DispatchExact
    rw [hobj, hserve]
    constructor
    · rintro ⟨_, _, _, heq, hev⟩
      obtain ⟨-, -, rfl⟩ := by simpa only [Option.some.injEq, Prod.mk.injEq] using heq
      exact hev
    · exact fun hev => ⟨_, _, _, rfl, hev⟩
  rw [hexact, hrun]
  rcases hg : guarded msg.dir msg.cmd with - | -
  · -- a message the guard refuses has the pair of no accepted item
    have hnone : ∀ a ∈ acc, ¬ ((base a).isFor msg && (base a).func.isSome) = true := by
      intro a ha hfor
      obtain ⟨hd, hc⟩ := Bool.and_eq_true_iff.mp (Bool.and_eq_true_iff.mp hfor).1
      have hin := h.inBounds a ha
      rw [eq_of_beq hd, eq_of_beq hc, hg] at hin
      cases hin
    rw [List.filter_eq_nil_iff.mpr hnone]
    exact ⟨fun _ hf => (Bool.false_ne_true hf).elim, fun _ => rfl⟩
  · rw [if_pos rfl, List.reverse_inj, filter_slot_eq_iff]
    exact ⟨fun h _ => h, fun h => h rfl⟩

/-! ### The bounds of the table -/

/-- The last index the loops of `Init_CmdList` touch. -/
def overrunIndex : ℕ := 196

theorem overrunIndex_mem_initCells : overrunIndex ∈ initCells :=
  List.mem_flatMap.mpr ⟨3, List.mem_range.mpr (by decide), List.mem_map.mpr
    ⟨127, List.mem_range.mpr (by decide), rfl⟩⟩

/-- The table is untouched until an item is registered, and overrun from then on. -/
inductive TableUse (s : DebugComm) : List Addr → Prop
  | untouched : s.hasInit = false → s.touched = [] → TableUse s []
  | overrun {seen} : seen ≠ [] → s.hasInit = true → overrunIndex ∈ s.touched → TableUse s seen

theorem TableUse.overrun_mem_ensureInit {s : DebugComm} {seen : List Addr} (h : TableUse s seen)
    (req : Option Addr) : overrunIndex ∈ (s.ensureInit req).touched := by
  cases h with
  | untouched hinit _ =>
    rw [DebugComm.ensureInit, hinit]
    exact List.mem_append_right s.touched overrunIndex_mem_initCells
  | overrun _ hinit hmem => rwa [ensureInit_of_hasInit hinit]

theorem TableUse.registerCmd {s : DebugComm} {seen : List Addr} (h : TableUse s seen)
    (req : Option Addr) (a : Addr) : TableUse (registerCmd req s (some a)).2 (seen ++ [a]) := by
  have hmem := h.overrun_mem_ensureInit req
  rcases registerCmd_cases req s a with ⟨-, hr⟩ | ⟨-, ts, hr⟩
  · rw [hr]
    exact .overrun (by simp) (ensureInit_hasInit req s) hmem
  · rw [hr]
    exact .overrun (by simp) (ensureInit_hasInit req s) (List.mem_append_left ts hmem)

theorem TableUse.cmdService {s s' : Sys} {seen : List Addr} (h : TableUse s.comm seen) {fuel : ℕ}
    {src : TDataChan} {msg : TCommMsg} {ack ret : Bool} {ev : List Event}
    (hserve : cmdService fuel s src msg ack = some (ret, s', ev)) : TableUse s'.comm seen := by
  cases h with
  | untouched hinit ht =>
    rw [cmdService_of_not_guard (by rw [hinit]; rfl)] at hserve
    obtain ⟨-, rfl, -⟩ := by simpa only [Option.some.injEq, Prod.mk.injEq] using hserve
    exact .untouched hinit ht
  | overrun hne hinit hmem =>
    obtain ⟨ts, hcomm⟩ := cmdService_comm hserve
    rw [hcomm]
    exact .overrun hne hinit (List.mem_append_left ts hmem)

/-- **When the table is not overrun**: as long as nothing was registered. -/
theorem inTable_iff {base : Addr → TCmd} {s : Sys} {acc seen : List Addr}
    (h : Registered base s.comm acc) (huse : TableUse s.comm seen) {fuel : ℕ}
    (hfuel : acc.length ≤ fuel) (src : TDataChan) (msg : TCommMsg) (ack : Bool) :
    InTable fuel s src msg ack ↔ seen = [] := by
  obtain ⟨ret, s', ev, hserve, -⟩ := h.cmdService hfuel src msg ack
  have huse' := huse.cmdService hserve
  constructor
  · rintro ⟨_, _, _, heq, hin⟩
    rw [hserve] at heq
    obtain ⟨-, rfl, -⟩ := by simpa only [Option.some.injEq, Prod.mk.injEq] using heq
    cases huse' with
    | untouched => rfl
    | overrun _ _ hmem => exact absurd (hin _ hmem) (by decide)
  · rintro rfl
    refine ⟨ret, s', ev, hserve, ?_⟩
    cases huse' with
    | untouched _ ht => rw [ht]; exact fun k hk => by cases hk
    | overrun hne => exact absurd rfl hne

/-! ### Whole histories -/

/-- The state after registering the items of a list. -/
def registerItems (req : Option Addr) (s : DebugComm) (as : List Addr) : DebugComm :=
  as.foldl (fun s a => (registerCmd req s (some a)).2) s

/-- `RegisterCmdList` registers the items of the array one after the other. -/
theorem registerCmdList_snd (req : Option Addr) (s : DebugComm) (base : Addr) (size : UInt8) :
    (registerCmdList req s base size).2
      = registerItems req s ((List.range size.toNat).map fun i => base + i) := by
  have hfold : ∀ (is : List ℕ) (r : UInt8) (s : DebugComm),
      (is.foldl (fun acc i =>
          let r := registerCmd req acc.2 (some (base + i))
          (acc.1 &&& r.1, r.2)) (r, s)).2
        = registerItems req s (is.map fun i => base + i) := by
    intro is
    induction is with
    | nil => intro r s; rfl
    | cons i is ih => intro r s; exact ih _ _
  exact hfold _ 1 s

/-- Registration changes the links of objects and the cells in the slots of its
items, and nothing else once the table is initialised. -/
theorem registerItems_frame (req : Option Addr) {as : List Addr} :
    ∀ {s : DebugComm}, s.hasInit = true → ∃ tcmd cmdlist touched,
      registerItems req s as = { s with tcmd := tcmd, cmdlist := cmdlist, touched := touched } ∧
        (∀ b, (tcmd b).slot = (s.tcmd b).slot) ∧
        ∀ k, (∀ a ∈ as, (s.tcmd a).slot ≠ k) → cmdlist k = s.cmdlist k := by
  induction as with
  | nil => exact fun {s} _ => ⟨s.tcmd, s.cmdlist, s.touched, rfl, fun _ => rfl, fun _ _ => rfl⟩
  | cons a as ih =>
    intro s hinit
    obtain ⟨t₁, c₁, ts₁, hstep, ht₁, hc₁⟩ : ∃ t₁ c₁ ts₁,
        (registerCmd req s (some a)).2 = { s with tcmd := t₁, cmdlist := c₁, touched := ts₁ } ∧
          (∀ b, (t₁ b).slot = (s.tcmd b).slot) ∧ ∀ k, (s.tcmd a).slot ≠ k → c₁ k = s.cmdlist k := by
      rcases registerCmd_cases req s a with ⟨-, hr⟩ | ⟨-, ts, hr⟩
      · rw [hr, ensureInit_of_hasInit hinit]
        exact ⟨s.tcmd, s.cmdlist, s.touched, rfl, fun _ => rfl, fun _ _ => rfl⟩
      · rw [hr, ensureInit_of_hasInit hinit]
        refine ⟨_, _, _, rfl, fun b => ?_, fun k hk => Function.update_of_ne (Ne.symm hk) _ _⟩
        by_cases hba : b = a
        · subst hba; rw [Function.update_self]; rfl
        · rw [Function.update_of_ne hba]
    -- slots are read off the objects before the registration: `ht₁` says they are the same
    obtain ⟨t₂, c₂, ts₂, hrest, ht₂, hc₂⟩ :=
      ih (s := (registerCmd req s (some a)).2) (by rw [hstep]; exact hinit)
    rw [hstep] at hrest ht₂ hc₂
    refine ⟨t₂, c₂, ts₂, ?_, fun b => (ht₂ b).trans (ht₁ b), fun k hk => ?_⟩
    · show registerItems req (registerCmd req s (some a)).2 as = _
      rw [hstep, hrest]
    · refine (hc₂ k fun b hb => ?_).trans (hc₁ k (hk a List.mem_cons_self))
      show (t₁ b).slot ≠ k
      rw [ht₁ b]
      exact hk b (List.mem_cons_of_mem a hb)

theorem mem_of_mem_acceptedBy {req : Option Addr} {as : List Addr} {b : Addr} :
    ∀ {s : DebugComm}, b ∈ acceptedBy req s as → b ∈ as := by
  induction as with
  | nil => intro s h; cases h
  | cons a as ih =>
    intro s h
    rcases List.mem_append.mp h with h | h
    · split_ifs at h
      · rw [List.mem_singleton.mp h]; exact List.mem_cons_self
      · cases h
    · exact List.mem_cons_of_mem a (ih h)

theorem length_acceptedBy_le {req : Option Addr} (as : List Addr) :
    ∀ s : DebugComm, (acceptedBy req s as).length ≤ as.length := by
  induction as with
  | nil => intro s; exact le_rfl
  | cons a as ih =>
    intro s
    have hrest := ih (registerCmd req s (some a)).2
    rw [acceptedBy, List.length_append, List.length_cons]
    split_ifs <;> simp only [List.length_singleton, List.length_nil] <;> omega

theorem Registered.registerItems {base : Addr → TCmd} (req : Option Addr) {as : List Addr} :
    ∀ {s : DebugComm} {acc : List Addr}, Registered base s acc → as.Nodup → (∀ a ∈ as, a ∉ acc) →
      Registered base (registerItems req s as) (acc ++ acceptedBy req s as) := by
  induction as with
  | nil =>
    intro s acc h _ _
    rw [acceptedBy, List.append_nil]
    exact h
  | cons a as ih =>
    intro s acc h hnd hnew
    obtain ⟨ha, hnd⟩ := List.nodup_cons.mp hnd
    have hstep := h.registerCmd req (hnew a List.mem_cons_self)
    rw [acceptedBy, ← List.append_assoc]
    refine ih hstep hnd fun b hb hmem => ?_
    rcases List.mem_append.mp hmem with hmem | hmem
    · exact hnew b (List.mem_cons_of_mem a hb) hmem
    · split_ifs at hmem
      · rw [List.mem_singleton.mp hmem] at hb
        exact ha hb
      · cases hmem

theorem TableUse.registerItems (req : Option Addr) {as : List Addr} :
    ∀ {s : DebugComm} {seen : List Addr}, TableUse s seen →
      TableUse (registerItems req s as) (seen ++ as) := by
  induction as with
  | nil => intro s seen h; rw [List.append_nil]; exact h
  | cons a as ih =>
    intro s seen h
    have hrest := ih (h.registerCmd req a)
    rw [List.append_assoc, List.singleton_append] at hrest
    exact hrest

/-- **History step.**  A step that registers new objects only keeps the invariants. -/
theorem cmdStep_registered {base : Addr → TCmd} (req : Option Addr) {s : Sys} {acc seen : List Addr}
    (h : Registered base s.comm acc) (huse : TableUse s.comm seen) {fuel : ℕ}
    (hfuel : acc.length ≤ fuel) (op : CmdOp) (hnd : op.items.Nodup)
    (hnew : ∀ a ∈ op.items, a ∉ acc) :
    ∃ s' acc', cmdStep fuel req s op = some (s', acc') ∧ Registered base s'.comm (acc ++ acc') ∧
      TableUse s'.comm (seen ++ op.items) ∧ acc'.length ≤ op.items.length ∧
      ∀ b ∈ acc', b ∈ op.items := by
  cases op with
  | registerCmd item =>
    refine ⟨_, _, rfl, ?_, ?_, length_acceptedBy_le _ _, fun b hb => mem_of_mem_acceptedBy hb⟩
    · cases item with
      | none => show Registered base s.comm (acc ++ []); rw [List.append_nil]; exact h
      | some a => exact h.registerItems req hnd hnew
    · cases item with
      | none => show TableUse s.comm (seen ++ []); rw [List.append_nil]; exact huse
      | some a => exact huse.registerCmd req a
  | registerCmdList b size =>
    refine ⟨_, _, rfl, ?_, ?_, length_acceptedBy_le _ _, fun b hb => mem_of_mem_acceptedBy hb⟩
    · show Registered base (registerCmdList req s.comm b size).2 _
      rw [registerCmdList_snd]
      exact h.registerItems req hnd hnew
    · show TableUse (registerCmdList req s.comm b size).2 _
      rw [registerCmdList_snd]
      exact huse.registerItems req
  | message src msg ack =>
    obtain ⟨ret, s', ev, hserve, -⟩ := h.cmdService hfuel src msg ack
    obtain ⟨ts, hcomm⟩ := cmdService_comm hserve
    refine ⟨s', [], by rw [cmdStep, hserve]; rfl, ?_, ?_, le_rfl, fun b hb => by cases hb⟩
    · rw [List.append_nil]
      exact h.of_comm_eq hcomm
    · show TableUse s'.comm (seen ++ [])
      rw [List.append_nil]
      exact huse.cmdService hserve

/-- **Histories.**  Every history over distinct objects runs to its end and keeps the
invariants. -/
theorem run_cmdStep {base : Addr → TCmd} (req : Option Addr) {ops : List CmdOp} :
    ∀ {s : Sys} {acc seen : List Addr} {fuel : ℕ}, Registered base s.comm acc →
      TableUse s.comm seen → (ops.flatMap CmdOp.items).Nodup →
      (∀ a ∈ ops.flatMap CmdOp.items, a ∉ acc) →
      acc.length + (ops.flatMap CmdOp.items).length ≤ fuel →
      ∃ s' acc', Run.run (cmdStep fuel req) s ops = some (s', acc') ∧
        Registered base s'.comm (acc ++ acc') ∧
        TableUse s'.comm (seen ++ ops.flatMap CmdOp.items) ∧ (acc ++ acc').length ≤ fuel := by
  induction ops with
  | nil =>
    intro s acc seen fuel h huse _ _ hfuel
    refine ⟨s, [], rfl, ?_⟩
    rw [List.flatMap_nil, List.append_nil, List.append_nil]
    exact ⟨h, huse, by simpa using hfuel⟩
  | cons op ops ih =>
    intro s acc seen fuel h huse hnd hnew hfuel
    rw [List.flatMap_cons] at hnd hnew hfuel
    rw [List.length_append] at hfuel
    obtain ⟨hnd₁, hnd₂, hdisj⟩ := List.nodup_append.mp hnd
    obtain ⟨s₁, acc₁, hstep, h₁, huse₁, hlen₁, hsub₁⟩ := cmdStep_registered req h huse
      (by omega : acc.length ≤ fuel) op hnd₁ fun a ha => hnew a (List.mem_append_left _ ha)
    -- what the first step accepted is among its items, so it does not come again
    have hnew₁ : ∀ a ∈ ops.flatMap CmdOp.items, a ∉ acc ++ acc₁ := by
      intro a ha hmem
      rcases List.mem_append.mp hmem with hmem | hmem
      · exact hnew a (List.mem_append_right _ ha) hmem
      · exact hdisj a (hsub₁ a hmem) a ha rfl
    have hfuel₁ : (acc ++ acc₁).length + (ops.flatMap CmdOp.items).length ≤ fuel := by
      rw [List.length_append]; omega
    obtain ⟨s₂, acc₂, hrun, h₂, huse₂, hlen₂⟩ := ih h₁ huse₁ hnd₂ hnew₁ hfuel₁
    refine ⟨s₂, acc₁ ++ acc₂, Run.run_cons_eq_some.mpr ⟨s₁, acc₁, acc₂, hstep, hrun, rfl⟩, ?_⟩
    rw [List.flatMap_cons, ← List.append_assoc, ← List.append_assoc]
    exact ⟨h₂, huse₂, hlen₂⟩

/-- **Registration and dispatch.**  After any history over distinct objects, and
whatever the next message is:

* dispatch and table bounds are both as they should be for every message iff the
  history registers no item at all;
* one message is dispatched exactly to the handlers of its own pair iff the guard
  refuses it or no accepted item with a handler shares its cell under another
  pair. -/
theorem cmdTable_dispatch_iff (req : Option Addr) (base : Addr → TCmd) (pcfg : ParamCfg)
    (mem : Addr → UInt8) (ops : List CmdOp) (hnd : (ops.flatMap CmdOp.items).Nodup) (fuel : ℕ)
    (hfuel : (ops.flatMap CmdOp.items).length ≤ fuel) :
    ∃ s accepted,
      Run.run (cmdStep fuel req) ⟨DebugComm.reset base, pcfg, mem⟩ ops = some (s, accepted) ∧
      ((∀ src msg ack, DispatchExact fuel s accepted src msg ack ∧ InTable fuel s src msg ack) ↔
        ops.flatMap CmdOp.items = []) ∧
      ∀ src msg ack, DispatchExact fuel s accepted src msg ack ↔
        (guarded msg.dir msg.cmd = true → ∀ a ∈ accepted, (base a).func.isSome = true →
          (base a).slot = slot msg.dir.toNat msg.cmd.toNat → (base a).isFor msg = true) := by
  let boot : Sys := ⟨DebugComm.reset base, pcfg, mem⟩
  have hboot : Registered base boot.comm [] := Registered.reset base
  have hfuel₀ : ([] : List Addr).length + (ops.flatMap CmdOp.items).length ≤ fuel := by
    rw [List.length_nil]; omega
  obtain ⟨s, accepted, hrun, hreg, huse, hlen⟩ := run_cmdStep req hboot
    (TableUse.untouched rfl rfl) hnd (fun a _ h => by cases h) hfuel₀
  rw [List.nil_append] at hreg huse hlen
  refine ⟨s, accepted, hrun, ?_, dispatchExact_iff hreg hlen⟩
  constructor
  · intro hall
    exact (inTable_iff hreg huse hlen 0 ⟨0, 0, 0, fun _ => 0⟩ false).mp (hall _ _ _).2
  · intro hnone src msg ack
    -- no item, so the table was never initialised
    have hacc : accepted = [] := by
      rw [hnone] at huse
      cases huse with
      | untouched hinit _ => exact hreg.fresh hinit
      | overrun hne => exact absurd rfl hne
    refine ⟨(dispatchExact_iff hreg hlen src msg ack).mpr fun _ a ha => ?_,
      (inTable_iff hreg huse hlen src msg ack).mpr hnone⟩
    rw [hacc] at ha
    cases ha

/-- Two items, for `DIR_READ` and `DIR_WRITE` of `CMD_READ_DATE`: a read of the date
is dispatched exactly, but the table was overrun. -/
theorem cmdTable_dispatch_iff_date :
    ∃ s accepted,
      Run.run (cmdStep 2 none)
          ⟨DebugComm.reset fun a => ⟨if a = 0 then 1 else 2, 8, some fun src msg => (1, src, msg), none⟩,
            ParamCfg.reset (fun _ => fm25l16Device) fun _ _ => 0, fun _ => 0⟩
          [.registerCmdList 0 2] = some (s, accepted) ∧
        (¬ ∀ src msg ack, DispatchExact 2 s accepted src msg ack ∧ InTable 2 s src msg ack) ∧
        DispatchExact 2 s accepted chanEth0 ⟨0, 1, 8, fun _ => 0⟩ true := by
  obtain ⟨s, accepted, hrun, hall, hone⟩ := cmdTable_dispatch_iff none
    (fun a => ⟨if a = 0 then 1 else 2, 8, some fun src msg => (1, src, msg), none⟩)
    (ParamCfg.reset (fun _ => fm25l16Device) fun _ _ => 0) (fun _ => 0) [.registerCmdList 0 2]
    (by decide) 2 le_rfl
  refine ⟨s, accepted, hrun, fun h => absurd (hall.mp h) (by decide), (hone _ _ _).mpr ?_⟩
  intro _ a _ _ hslot
  by_cases ha : a = 0
  · subst ha; rfl
  · simp only [if_neg ha] at hslot
    exact absurd hslot (by decide)

/-- An item for command 23 of `DIR_CONTRL` is called for command 0 of `DIR_READ`:
both are element 23 of the table.  And the table was overrun. -/
theorem handler_of_other_pair_called :
    ∃ s, Run.run (cmdStep 1 none)
          ⟨DebugComm.reset fun _ => ⟨0, 23, some fun src msg => (1, src, msg), none⟩,
            ParamCfg.reset (fun _ => fm25l16Device) fun _ _ => 0, fun _ => 0⟩
          [.registerCmd (some 0)] = some (s, [0]) ∧
        ¬ DispatchExact 1 s [0] chanEth0 ⟨0, 1, 0, fun _ => 0⟩ true ∧
        ¬ InTable 1 s chanEth0 ⟨0, 1, 0, fun _ => 0⟩ true := by
  let base : Addr → TCmd := fun _ => ⟨0, 23, some fun src msg => (1, src, msg), none⟩
  have hreg : Registered base (registerCmd none (DebugComm.reset base) (some 0)).2 [0] :=
    (Registered.reset base).registerCmd none List.not_mem_nil
  have huse : TableUse (registerCmd none (DebugComm.reset base) (some 0)).2 [0] :=
    (TableUse.untouched rfl rfl).registerCmd none 0
  refine ⟨_, rfl, fun h => ?_, fun h => ?_⟩
  · have hshare := (dispatchExact_iff hreg (by decide) _ _ _).mp h
    exact absurd (hshare (by decide) 0 List.mem_cons_self rfl (by decide)) (by decide)
  · exact absurd ((inTable_iff hreg huse (by decide) _ _ _).mp h) (by decide)

end Start01
