/-
Start01/AbccNode.lean

The Anybus driver and the application together.  Messages of the module go through the driver to the
objects of the application, and what these give to `ABCC_SendMessage` goes back through it, if the
driver has a buffer for it; the application data object says how long the process data is.

What the driver asks of the application (`AbccOp.Ok`), the application does: a run of both is safe,
whatever the module sends, if the configuration takes a buffer for a command only when there is one,
and no remap command that is accepted loses a map (`anybus_node`).
-/
import Start01.AbccCbf

namespace Start01

open Run Link Scatter

/-- A message that the application has been given. -/
structure Handled where
  msg : ℕ → UInt8
  /-- The client before. -/
  appc : Appc
  reaction : Reaction
  /-- The driver when `ABCC_SendMessage` is called. -/
  before : Abcc
  after : Abcc

/-- The driver and the application, and what the application has been given. -/
structure AbccNode where
  driver : Abcc
  appl : Appl
  log : List Handled

/-- The steps of the node. -/
inductive NodeOp
  /-- A step that the application has no part in. -/
  | driver (op : AbccOp)
  /-- `aplink_HandleQueuedMsgsToAppl`. -/
  | handle
  /-- A call of the application data object that brings no command. -/
  | appd (op : AppdOp)
  /-- `ABCC_CbfCfgCompleted`, behind `APPD_ProcessDataChanged`. -/
  | cfgCompleted
  /-- `APPC_SetSwitch1`. -/
  | setSwitch1 (bSw1 : UInt8)
  /-- `APPC_SetSwitch2`. -/
  | setSwitch2 (bSw2 : UInt8)

/-- What `APPD_CbfRequestPdSize` hands over. -/
def Abcc.setSizes (s : Abcc) (appd : Appd) : Abcc :=
  { s with appdReadSize := appd.iReadSize, appdWriteSize := appd.iWriteSize }

namespace AbccNode

/-- The driver after a reset, and the application data object after `APPD_MapAdiToPd`. -/
def boot (buf : BufRef → ℕ → UInt8) (appl : Appl) : AbccNode :=
  ⟨(Abcc.boot buf).setSizes appl.appd, appl, []⟩

/-- A message of the module is handled. -/
def handle (n : AbccNode) : Option AbccNode :=
  match (n.driver.queue .msgToAppl).getFirst with
  | some (some psQEntry, q) => do
    let m := (n.driver.buf psQEntry).sMsg
    -- the sizes are those after the command, before the answer is sent
    let at_ (appd : Appd) : Abcc := (n.driver.setSizes appd).takeMsg psQEntry q
    let x ← n.appl.newMsgFromAbcc (fun appd r => ((at_ appd).sendMessage r).2) m
    let driver ← (n.driver.setSizes x.appl.appd).handleQueuedMsgsToAppl
      fun _ => x.offered.map Prod.fst
    -- the message has been changed in its buffer, which is free now
    let driver := driver.putMsg psQEntry x.msg
    return ⟨driver, x.appl, n.log ++ [⟨m, n.appl.appc, x, at_ x.appl.appd, driver⟩]⟩
  | _ => (n.driver.handleQueuedMsgsToAppl fun _ => []).map fun driver => { n with driver := driver }

/-- `APPC_Init` and `APPC_RunStateMachine`. -/
def cfgCompleted (n : AbccNode) : AbccNode :=
  let (appc, offered) := n.appl.appc.init.runStateMachine fun r => (n.driver.sendMessage r).2
  { n with
    driver := (offered.map Prod.fst).foldl (fun s m => (s.sendMessage m).1) n.driver
    appl := { n.appl with appc := appc } }

/-- One step; `none` if the driver or the application data object does not return. -/
def step (n : AbccNode) : NodeOp → Option AbccNode
  | .driver op => (n.driver.step op).map fun driver => { n with driver := driver }
  | .handle => n.handle
  | .appd op => (n.appl.appd.step op).map fun (appd, _) =>
    { n with appl := { n.appl with appd := appd } }
  | .cfgCompleted => some n.cfgCompleted
  | .setSwitch1 bSw1 => some { n with appl := { n.appl with appc := n.appl.appc.setSwitch1 bSw1 } }
  | .setSwitch2 bSw2 => some { n with appl := { n.appl with appc := n.appl.appc.setSwitch2 bSw2 } }

end AbccNode

/-- Messages are handled and lengths are set in `handle`; else the application sends commands. -/
def AbccOp.Own (s : Abcc) : AbccOp → Prop
  | .handle _ => False
  | .pdSize _ _ => False
  | .send psMessage => isCommand psMessage = true
  | op => op.Ok s

/-- What is asked for: a remap command that is accepted does not lose a map, beside `Own`. -/
def NodeOp.Ok (n : AbccNode) : NodeOp → Prop
  | .driver op => op.Own n.driver
  | .handle => ∀ psQEntry q, (n.driver.queue .msgToAppl).getFirst = some (some psQEntry, q) →
    n.appl.MessageOk (n.driver.buf psQEntry).sMsg
  | .appd (.command _) => False
  | _ => True

theorem AbccOp.Own.ok {s : Abcc} {op : AbccOp} (h : op.Own s) : op.Ok s := by
  cases op with
  | handle app => exact absurd h id
  | pdSize r w => exact absurd h id
  | send m => exact remapOk_of_command h
  | run b => exact h
  | cfgSend f => exact h
  | cfgTake => exact h
  | change e => exact h
  | tick => exact h
  | received y => exact h
  | writeProcessData d => exact h
  | newWritePd => exact h

/-! ### What `ABCC_SendMessage` returns -/

namespace Abcc

/-- The driver is in a state for messages and has a buffer for this one, and no command waits for its
response if it is a command. -/
def MaySend (s : Abcc) (m : ℕ → UInt8) : Prop :=
  (s.aplink.eDriverState = .inRunNoPd ∨ s.aplink.eDriverState = .inRun) ∧
    (s.allocate (poolOf m)).isSome = true ∧
    (isCommand m = true → s.aplink.bNbrOfCmdsActiveToAbcc = 0)

/-- What a message that may be sent, or may not, does to what has been posted. -/
structure Posts (s : Abcc) (may : Prop) (m : ℕ → UInt8) (x : Abcc × AbccStatus) : Prop where
  status : x.2 = .ok ↔ may
  posted : x.1.posted = s.posted ++ if x.2 = .ok then [msgBytes m] else []

variable {s : Abcc} {ls : Pool → List BufRef} {held : List BufRef} {m : ℕ → UInt8}

/-- There is room in the queue for each buffer. -/
theorem addFragAndPostMsg_posts {r : BufRef} (h : Stored s.link ls (r :: held))
    (hpool : poolOf (s.buf r).sMsg = r.pool) (hremap : RemapOk (s.buf r).sMsg) :
    Posts s (isCommand (s.buf r).sMsg = true → s.aplink.bNbrOfCmdsActiveToAbcc = 0) (s.buf r).sMsg
      (s.addFragAndPostMsg r) := by
  have hne : AbccStatus.outOfResources ≠ .ok := by decide
  rcases addFragAndPostMsg_cases h hpool hremap rfl with
    ⟨hcmd, hbusy, -, hfreed⟩ | ⟨hmay, q, t', hlink, -, -, hdone⟩
  · rw [hfreed]
    refine ⟨iff_of_false hne fun hfree => hbusy (hfree hcmd), ?_⟩
    rw [if_neg hne, List.append_nil]
    rfl
  · rw [hdone]
    refine ⟨iff_of_true rfl hmay, ?_⟩
    rw [if_pos rfl]
    exact congrArg Link.posted hlink

/-- **`ABCC_SendMessage`.**  It returns ABCC_STATUS_OK exactly if the message may be sent, and then
the message is posted. -/
theorem sendMessage_posts (h : Stored s.link ls held) (hm : RemapOk m) :
    Posts s (s.MaySend m) m (s.sendMessage m) := by
  have hrefused : ∀ {t : Abcc} {status : AbccStatus}, status ≠ .ok → ¬ s.MaySend m →
      t.posted = s.posted → Posts s (s.MaySend m) m (t, status) := by
    intro t status hne hnot hsame
    refine ⟨iff_of_false hne hnot, ?_⟩
    rw [if_neg hne, List.append_nil]
    exact hsame
  by_cases hstate : s.aplink.eDriverState = .inRunNoPd ∨ s.aplink.eDriverState = .inRun
  · cases halloc : s.allocate (poolOf m) with
    | none =>
      rw [sendMessage, if_pos hstate, halloc]
      refine hrefused (by decide) (fun hmay => ?_) rfl
      have hsome := hmay.2.1
      rw [halloc] at hsome
      cases hsome
    | some rs =>
      obtain ⟨r, s₁⟩ := rs
      obtain ⟨t, hsend, ht⟩ := sendMessage_of_allocate h hm hstate halloc
      obtain ⟨hstatus, hposted⟩ := addFragAndPostMsg_posts ht.stored ht.pool ht.remap
      rw [ht.isCommand, ht.active] at hstatus
      rw [ht.posted, ht.bytes] at hposted
      rw [hsend]
      refine ⟨hstatus.trans ⟨fun hfree => ⟨hstate, ?_, hfree⟩, fun hmay => hmay.2.2⟩, hposted⟩
      rw [halloc]
      rfl
  · rw [sendMessage, if_neg hstate]
    exact hrefused (by decide) (fun hmay => hstate hmay.1) rfl

theorem fEntryUsed_free (s : Abcc) (r : BufRef) : ((s.free r).buf r).fEntryUsed = false := by
  exact congrArg BufMsg.fEntryUsed (Function.update_self r _ s.buf)

/-- What is left in a free buffer does not matter. -/
theorem good_putMsg {r : BufRef} (h : Start01.Good s) (hfree : (s.buf r).fEntryUsed = false) :
    Start01.Good (s.putMsg r m) := by
  obtain ⟨ls, hls⟩ := h.inv.stored
  have hlink : (s.putMsg r m).link = s.link.putBuf r { s.buf r with sMsg := m } := rfl
  have hused : ∀ r', ((s.putMsg r m).link.buf r').fEntryUsed = (s.link.buf r').fEntryUsed := by
    intro r'
    rw [hlink]
    by_cases heq : r' = r
    · rw [heq, putBuf_buf]
      rfl
    · exact congrArg BufMsg.fEntryUsed (Function.update_of_ne heq _ _)
  have hqueued : Queued (s.putMsg r m).link.buf s.link.queue ls s.link.psWriteMsgBuffer.toList :=
    ⟨hls.queued.holds, fun r' => (hls.queued.count r').trans (by rw [hused]), hls.queued.pool,
      fun r' hr' => hls.queued.entry_lt r' ((hused r').symm.trans hr')⟩
  refine h.served ⟨ls, hls.of_buf hqueued fun p hr => ?_⟩ ⟨rfl, fun r' hr' => ?_⟩ rfl
  · rw [show (s.buf r).fEntryUsed = true from hls.queued.used_of_mem hr] at hfree
    cases hfree
  · refine Function.update_of_ne ?_ _ _
    rintro rfl
    rw [show (s.buf r').fEntryUsed = true from hls.queued.used_of_held hr'] at hfree
    cases hfree

end Abcc

/-! ### The node -/

/-- What is right of a message that has been handled. -/
structure Handled.Right (e : Handled) : Prop where
  answered : Answered e.msg e.appc e.reaction
  /-- `ABCC_SendMessage` refuses a message exactly if the driver has no use for it now. -/
  status : ∀ p ∈ e.reaction.offered, p.2 = .ok ↔ e.before.MaySend p.1
  /-- What it does not refuse is posted. -/
  posted : e.after.posted = e.before.posted
    ++ (e.reaction.offered.filter (·.2 = .ok)).map fun p => msgBytes p.1

namespace AbccNode

variable {n n' : AbccNode}

/-- What holds between two steps. -/
structure Good (n : AbccNode) : Prop where
  driver : Start01.Good n.driver
  appl : n.appl.Good
  right : ∀ e ∈ n.log, e.Right

/-- The lengths may be set. -/
theorem good_setSizes {s : Abcc} {appd : Appd} (hs : Start01.Good s) (h : appd.Good) :
    Start01.Good (s.setSizes appd) := by
  have hle : appd.iWriteSize ≤ 256 := by
    have hten := h.write.totalSize_le
    rw [← h.writeSize] at hten
    exact UInt16.le_iff_toNat_le.mpr (hten.trans (by decide))
  have hok : (AbccOp.pdSize appd.iReadSize appd.iWriteSize).Ok s := hle
  obtain ⟨s', hs', hgood, -⟩ := hs.step hok
  obtain rfl := Option.some.inj hs'
  exact hgood

/-- One message, or none, is given to `ABCC_SendMessage`. -/
theorem posted_offered {s : Abcc} {ls : Pool → List BufRef} {held : List BufRef}
    (h : Stored s.link ls held) {offered : List ((ℕ → UInt8) × AbccStatus)}
    (hone : offered.length ≤ 1) (hremap : ∀ p ∈ offered, RemapOk p.1)
    (hstatus : ∀ p ∈ offered, p.2 = (s.sendMessage p.1).2) :
    (∀ p ∈ offered, p.2 = .ok ↔ s.MaySend p.1) ∧
      ((offered.map Prod.fst).foldl (fun s m => (s.sendMessage m).1) s).posted
        = s.posted ++ (offered.filter (·.2 = .ok)).map fun p => msgBytes p.1 := by
  match offered, hone with
  | [], _ => exact ⟨fun p hp => absurd hp List.not_mem_nil, (List.append_nil _).symm⟩
  | [(m, status)], _ =>
    have hposts := Abcc.sendMessage_posts h (hremap _ (List.mem_singleton_self _))
    have hstatus : status = (s.sendMessage m).2 := hstatus _ (List.mem_singleton_self _)
    refine ⟨List.forall_mem_singleton.mpr (hstatus ▸ hposts.status), ?_⟩
    have hposted := hposts.posted
    rw [← hstatus] at hposted
    show (s.sendMessage m).1.posted = _
    rw [hposted]
    by_cases hok : status = .ok
    · rw [if_pos hok, List.filter_cons_of_pos (by simpa using hok)]
      rfl
    · rw [if_neg hok, List.filter_cons_of_neg (by simpa using hok)]
      rfl

theorem Good.handle (h : Good n) (hok : NodeOp.handle.Ok n) :
    ∃ n', n.handle = some n' ∧ Good n' := by
  have hnone : ∃ n', (n.driver.handleQueuedMsgsToAppl fun _ => []).map
      (fun driver => { n with driver := driver }) = some n' ∧ Good n' := by
    have hsends : (AbccOp.handle fun _ => []).Ok n.driver :=
      fun _ m' hm' => absurd hm' List.not_mem_nil
    obtain ⟨s', hs', hgood, -⟩ := h.driver.step hsends
    have hs' : n.driver.handleQueuedMsgsToAppl (fun _ => []) = some s' := hs'
    exact ⟨{ n with driver := s' }, by rw [hs']; rfl, hgood, h.appl, h.right⟩
  unfold AbccNode.handle
  split
  · rename_i psQEntry q hfirst
    dsimp only
    obtain ⟨x, hx, hreacts⟩ := Appl.newMsgFromAbcc_spec h.appl (fun appd r =>
      (((n.driver.setSizes appd).takeMsg psQEntry q).sendMessage r).2) _ (hok psQEntry q hfirst)
    have hsized := good_setSizes h.driver hreacts.good.appd
    have hremap : ∀ m ∈ x.offered.map Prod.fst, RemapOk m := by
      intro m hm
      obtain ⟨p, hp, rfl⟩ := List.mem_map.mp hm
      exact hreacts.remapOk p hp
    have hsends : (AbccOp.handle fun _ => x.offered.map Prod.fst).Ok
      (n.driver.setSizes x.appl.appd) := fun _ => hremap
    obtain ⟨s', hs', hgood, -⟩ := hsized.step hsends
    have hs' : (n.driver.setSizes x.appl.appd).handleQueuedMsgsToAppl
      (fun _ => x.offered.map Prod.fst) = some s' := hs'
    -- what the call of the application finds
    obtain ⟨ls, hls⟩ := hsized.inv.stored
    obtain ⟨ls', hstored⟩ : ∃ ls', Stored
        ((n.driver.setSizes x.appl.appd).takeMsg psQEntry q).link ls'
          (psQEntry :: (n.driver.setSizes x.appl.appd).link.psWriteMsgBuffer.toList) := by
      rcases Abcc.take_spec hls with hnone | ⟨r, q', ls', hfirst', hstored⟩
      · exact absurd (hfirst.symm.trans hnone) (by simp)
      · obtain ⟨hr, rfl⟩ := Prod.mk.inj (Option.some.inj (hfirst.symm.trans hfirst'))
        obtain rfl := Option.some.inj hr
        exact ⟨ls', Abcc.link_takeMsg _ _ _ ▸ hstored⟩
    obtain ⟨hstatus, hposted⟩ :=
      posted_offered hstored hreacts.atMostOne hreacts.remapOk hreacts.status
    have heq : (((x.offered.map Prod.fst).foldl (fun s m => (s.sendMessage m).1)
        ((n.driver.setSizes x.appl.appd).takeMsg psQEntry q)).free psQEntry) = s' := by
      have hall := hs'
      rw [Abcc.handleQueuedMsgsToAppl, show ((n.driver.setSizes x.appl.appd).queue .msgToAppl).getFirst
        = _ from hfirst] at hall
      exact Option.some.inj hall
    have hfree : (s'.buf psQEntry).fEntryUsed = false := by
      rw [← heq, Abcc.fEntryUsed_free]
    refine ⟨⟨s'.putMsg psQEntry x.msg, x.appl, n.log ++ [⟨(n.driver.buf psQEntry).sMsg,
      n.appl.appc, x, (n.driver.setSizes x.appl.appd).takeMsg psQEntry q,
      s'.putMsg psQEntry x.msg⟩]⟩, ?_, Abcc.good_putMsg hgood hfree, hreacts.good, ?_⟩
    · rw [hx, Option.bind_eq_bind, Option.bind_some, hs']
      rfl
    · intro e he
      rcases List.mem_append.mp he with he | he
      · exact h.right e he
      · rw [List.mem_singleton.mp he]
        refine ⟨hreacts.answered, hstatus, ?_⟩
        rw [← hposted, ← heq]
        rfl
  · exact hnone

theorem Good.cfgCompleted (h : Good n) : Good n.cfgCompleted := by
  have hordered := (Appc.Ordered.init n.appl.appc).runStateMachine
    fun r => (n.driver.sendMessage r).2
  obtain ⟨ls, hls⟩ := h.driver.inv.stored
  obtain ⟨hstored, hserved, hpd⟩ := Abcc.foldl_sendMessage_spec
    ((n.appl.appc.init.runStateMachine fun r => (n.driver.sendMessage r).2).2.map Prod.fst) hls
    fun m hm => by
      obtain ⟨p, hp, rfl⟩ := List.mem_map.mp hm
      exact remapOk_of_command (Appc.offered_isCommand p hp)
  exact ⟨h.driver.served hstored hserved hpd, ⟨h.appl.appd, h.appl.ranged, hordered⟩, h.right⟩

/-- **Step.** -/
theorem Good.step {op : NodeOp} (h : Good n) (hok : op.Ok n) :
    ∃ n', n.step op = some n' ∧ Good n' := by
  cases op with
  | driver op =>
    obtain ⟨s', hs', hgood, -⟩ := h.driver.step (AbccOp.Own.ok hok)
    exact ⟨{ n with driver := s' }, by rw [AbccNode.step, hs']; rfl, hgood, h.appl, h.right⟩
  | handle => exact h.handle hok
  | appd op =>
    have hop : op.Ok n.appl.appd := by
      cases op with
      | command m => exact absurd hok id
      | newReadProcessData d => trivial
      | processDataChanged d => trivial
      | setNetworkByteOrder e => trivial
    obtain ⟨s', hs', hgood, hdrive⟩ := Appd.step_spec h.appl.appd hop
    have hranged : s'.drive.Ranged := hdrive ▸ (h.appl.ranged.step op).1
    refine ⟨{ n with appl := { n.appl with appd := s' } }, ?_, h.driver,
      ⟨hgood, hranged, h.appl.ordered⟩, h.right⟩
    rw [AbccNode.step, hs']
    rfl
  | cfgCompleted => exact ⟨_, rfl, h.cfgCompleted⟩
  | setSwitch1 bSw1 =>
    exact ⟨_, rfl, h.driver, ⟨h.appl.appd, h.appl.ranged, h.appl.ordered⟩, h.right⟩
  | setSwitch2 bSw2 =>
    exact ⟨_, rfl, h.driver, ⟨h.appl.appd, h.appl.ranged, h.appl.ordered⟩, h.right⟩

/-- What a run gives. -/
structure Safe (n : AbccNode) : Prop where
  stopAndWait : StopAndWait n.driver
  toModule : MessagesToModule n.driver
  ofModule : MessagesOfModule n.driver
  buffers : BuffersKept n.driver
  /-- Each message is handled as it should be. -/
  right : ∀ e ∈ n.log, e.Right
  inRange : ∀ i, InRange i (n.appl.appd.bank i)
  /-- The commands of the client come in their order, each once. -/
  ordered : n.appl.appc.Ordered

theorem Good.safe (h : Good n) : n.Safe :=
  ⟨h.driver.stopAndWait, h.driver.messagesToModule, h.driver.messagesOfModule,
    h.driver.buffersKept, h.right, h.appl.ranged, h.appl.ordered⟩

end AbccNode

namespace AbccNode

/-- The steps of a run that can be tested. -/
def check (n : AbccNode) : NodeOp → Bool
  | .driver (.run _) => true
  | .driver .tick => true
  | .driver (.change _) => true
  | .driver (.received _) => true
  | .handle => (n.driver.queue .msgToAppl).getFirst.all fun p => p.1.all fun psQEntry =>
    iInstance (n.driver.buf psQEntry).sMsg != 0 && !isError (n.driver.buf psQEntry).sMsg
  | .appd (.newReadProcessData _) => true
  | .cfgCompleted => true
  | .setSwitch1 _ => true
  | _ => false

theorem ok_of_check {op : NodeOp} (h : n.check op = true) : op.Ok n := by
  unfold check at h
  split at h
  case h_5 =>
    intro psQEntry q hfirst
    rw [hfirst] at h
    simp only [Option.all_some, Bool.and_eq_true, bne_iff_ne, Bool.not_eq_true'] at h
    exact fun _ _ _ => ⟨h.2, fun hc => absurd hc h.1⟩
  case h_9 => cases h
  all_goals trivial

end AbccNode

end Start01
