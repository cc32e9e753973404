/-
Start01/Reply.lean

Where the replies of the TCP server go, and which bytes TCP sends for them.

* `network_send_data` queues on `peer_pcb`, which every accept overwrites, so a
  reply goes to the connection accepted last, whichever connection carried the
  request (`replies_to_sender_iff`).
* `send_data` lets the queue refer to `m_send_buf`, the one static buffer in which
  every reply is built.  What TCP would transmit for an old reply changes when a
  new one is built, and a reply for which the send buffer has too little room is
  queued cut short (`replies_faithful_iff`).

Both results are about all runs of the server.  They are instances of the run
rule of Network.lean, so that one call of `AckCommMsg` is all there is to look at
(`Reply.after_cases`).
-/
import Start01.Network

namespace Start01

open Run

/-! ### One reply -/

/-- The reply is queued, on the connection `pcb`. -/
def Reply.Queues (r : Reply) (pcb : Pcb) : Prop :=
  r.before.netInitOk = true ∧ r.before.peerPcb = some pcb ∧
    (r.before.pcbs pcb).state = .established ∧ r.dest = chanEth0 ∧
    0 < (r.before.pcbs pcb).sndBuf ∧ r.env.memOk = true

/-- `m_send_buf` with the reply in it. -/
def Reply.sendBuf (r : Reply) : List UInt8 := frameBytes r.msg ++ r.before.mSendBuf.drop 11

/-- The state with the reply built but not queued. -/
def Reply.built (r : Reply) : Net := { r.before with mSendBuf := r.sendBuf }

/-- The connection with as much of the reply queued as there is room for. -/
def Reply.queued (r : Reply) (pcb : Pcb) : TcpPcb :=
  let p := r.before.pcbs pcb
  { p with
    sndBuf := p.sndBuf - min p.sndBuf 11
    queue := p.queue ++ [⟨min p.sndBuf 11, .ref, r.sendBuf⟩] }

theorem setPcb_self (n : Net) (pcb : Pcb) : n.setPcb pcb (n.pcbs pcb) = n := by
  rw [Net.setPcb, Function.update_eq_self]

/-- `send_data` changes at most its own connection, and only if `tcp_write` took
something. -/
theorem sendData_snd (env : TcpEnv) (n : Net) (pcb : Pcb) (dataLen : ℕ) :
    (sendData env n pcb dataLen).2
      = n.setPcb pcb (tcpWrite env (n.pcbs pcb) n.mSendBuf
          (if (n.pcbs pcb).sndBuf < dataLen then (n.pcbs pcb).sndBuf else dataLen) 0).2 := by
  unfold sendData
  dsimp only
  split <;> rfl

/-- **What one reply does**: it is built in `m_send_buf` and, where it is queued,
its first bytes become an entry that refers to that buffer. -/
theorem Reply.after_cases (r : Reply) :
    (∃ pcb, r.Queues pcb ∧ r.after = r.built.setPcb pcb (r.queued pcb)) ∨
    ((∀ pcb, ¬ r.Queues pcb) ∧ r.after = r.built) := by
  have hafter : r.after = (networkSendData r.env r.built r.dest 11).2 := rfl
  rw [hafter, networkSendData]
  by_cases hok : r.before.netInitOk = true
  · rw [if_neg (by rw [show r.built.netInitOk = r.before.netInitOk from rfl, hok]; simp)]
    rcases hpeer : r.before.peerPcb with - | pcb
    · refine .inr ⟨fun q hq => ?_, ?_⟩
      · rw [hq.2.1] at hpeer
        cases hpeer
      · rw [show r.built.peerPcb = none from hpeer]
    · -- the only connection the reply can go to
      have honly : ∀ q, r.Queues q → q = pcb := by
        intro q hq
        have := hq.2.1.symm.trans hpeer
        exact Option.some.inj this
      rw [show r.built.peerPcb = some pcb from hpeer]
      dsimp only
      by_cases hst : (r.before.pcbs pcb).state = .established
      · by_cases hdest : r.dest = chanEth0
        · rw [if_pos (show (r.built.pcbs pcb).state = .established from hst), if_pos hdest, sendData_snd]
          have hlen : (if (r.built.pcbs pcb).sndBuf < 11 then (r.built.pcbs pcb).sndBuf else 11)
              = min (r.before.pcbs pcb).sndBuf 11 := by
            show (if (r.before.pcbs pcb).sndBuf < 11 then (r.before.pcbs pcb).sndBuf else 11) = _
            split_ifs <;> omega
          rw [hlen, tcpWrite, if_pos (.inl hst)]
          by_cases hroom : 0 < (r.before.pcbs pcb).sndBuf
          · rw [if_pos (by omega)]
            rcases hmem : r.env.memOk with - | -
            · rw [if_pos (.inr rfl)]
              refine .inr ⟨fun q hq => ?_, setPcb_self _ _⟩
              rw [hq.2.2.2.2.2] at hmem
              cases hmem
            · refine .inl ⟨pcb, ⟨hok, hpeer, hst, hdest, hroom, hmem⟩, ?_⟩
              rw [if_neg]
              · rfl
              · rintro (hlt | hfalse)
                · change (r.before.pcbs pcb).sndBuf < _ at hlt
                  omega
                · cases hfalse
          · rw [if_neg (by omega)]
            refine .inr ⟨fun q hq => ?_, setPcb_self _ _⟩
            rw [honly q hq] at hq
            exact hroom hq.2.2.2.2.1
        · rw [if_neg hdest, ite_self]
          exact .inr ⟨fun q hq => hdest hq.2.2.2.1, rfl⟩
      · rw [if_neg (show ¬ (r.built.pcbs pcb).state = .established from hst)]
        refine .inr ⟨fun q hq => ?_, rfl⟩
        rw [honly q hq] at hq
        exact hst hq.2.2.1
  · rw [if_pos (by rw [show r.built.netInitOk = r.before.netInitOk from rfl]; simpa using hok)]
    exact .inr ⟨fun q hq => hok hq.1, rfl⟩

/-! ### Runs -/

/-- Two variables of four bytes in RAM, for commands 0 and 1. -/
def twoVars : Sys where
  comm := (registerAutoVarList none (DebugComm.reset fun _ => ⟨0, 0, none, none⟩)
    [⟨0, 4, some 100, 1, 0⟩, ⟨1, 4, some 104, 1, 0⟩]).2
  pcfg := ParamCfg.reset (fun _ => fm25l16Device) fun _ _ => 0
  mem := UInt8.ofNat

/-- A `DIR_READ` of a command, as a frame. -/
def readRequest (cmd : UInt8) : List UInt8 := frameBytes ⟨0, 1, cmd, fun _ => 0⟩

/-- Memory is available and `tcp_output` succeeds. -/
def calm : ℕ → TcpEnv := fun _ => ⟨true, .ok⟩

/-! ### The connection of a reply -/

/-- The call queues nothing on a connection other than the one that carried the
request. -/
def Reply.ToSender (r : Reply) : Prop :=
  ∀ q, (r.after.pcbs q).queue ≠ (r.before.pcbs q).queue → q = r.pcb

/-- If the call queues the reply at all, its request came on the connection
accepted last. -/
def Reply.FromLastAccepted (r : Reply) : Prop :=
  ∀ pcb, r.Queues pcb → r.before.accepted.head? = some r.pcb

/-- Queueing puts the reply on one connection, and leaves the others alone. -/
theorem Reply.queue_changed_iff {r : Reply} {pcb : Pcb} (hafter : r.after = r.built.setPcb pcb (r.queued pcb))
    (q : Pcb) : (r.after.pcbs q).queue ≠ (r.before.pcbs q).queue ↔ q = pcb := by
  rw [hafter]
  show (Function.update r.before.pcbs pcb (r.queued pcb) q).queue ≠ _ ↔ _
  by_cases hqp : q = pcb
  · subst hqp
    rw [Function.update_self]
    simp [Reply.queued]
  · rw [Function.update_of_ne hqp]
    exact ⟨fun h => absurd rfl h, fun h => absurd h hqp⟩

/-- While the peer is the connection accepted last. -/
theorem Reply.toSender_iff {r : Reply} (hP : r.before.peerPcb = r.before.accepted.head?) :
    r.ToSender ↔ r.FromLastAccepted := by
  rcases r.after_cases with ⟨pcb, hq, hafter⟩ | ⟨hnone, hafter⟩
  · constructor
    · intro hto q hq'
      have hmine : pcb = r.pcb := hto pcb ((r.queue_changed_iff hafter pcb).mpr rfl)
      rw [← hP, ← hmine]
      exact hq.2.1
    · intro hfrom q hne
      rw [(r.queue_changed_iff hafter q).mp hne]
      have hlast := hfrom pcb hq
      rw [← hP, hq.2.1] at hlast
      exact Option.some.inj hlast
  · have hto : r.ToSender := fun q hne => absurd (by rw [hafter]; rfl) hne
    exact ⟨fun _ pcb hq => absurd hq (hnone pcb), fun _ => hto⟩

/-- A reply does not change which connection the peer is. -/
theorem Reply.after_peerPcb (r : Reply) :
    r.after.peerPcb = r.before.peerPcb ∧ r.after.accepted = r.before.accepted := by
  rcases r.after_cases with ⟨pcb, -, hafter⟩ | ⟨-, hafter⟩ <;> rw [hafter] <;> exact ⟨rfl, rfl⟩

theorem toSender_rule :
    NetRule (fun n => n.peerPcb = n.accepted.head?) Reply.ToSender Reply.FromLastAccepted where
  reply r hP := by
    refine ⟨by simpa using r.toSender_iff hP, fun _ => ?_⟩
    obtain ⟨hpeer, hacc⟩ := r.after_peerPcb
    rw [hpeer, hacc]
    exact hP
  accept n pcb _ := rfl
  tcp n pcb acked sndBuf state hP := hP
  frame n sys recvBuf netInitOk hP := hP

/-- **Replies reach the client that asked** in exactly those runs in which every
request whose reply is queued came on the connection accepted last. -/
theorem replies_to_sender_iff {fuel : ℕ} (sys : Sys) (netInitOk : Bool) (ops : List NetOp)
    {n : Net} {rs : List Reply}
    (hrun : run (netStep fuel) (Net.boot sys netInitOk) ops = some (n, rs)) :
    (∀ r ∈ rs, r.ToSender) ↔ ∀ r ∈ rs, r.FromLastAccepted :=
  (toSender_rule.run rfl hrun).1

/-- One client, one request: the reply is queued on its connection. -/
theorem replies_to_sender_iff_one_client :
    ∃ n r, run (netStep 1) (Net.boot twoVars true) [.accept 0, .recv 0 [readRequest 0] calm]
      = some (n, [r]) ∧ r.ToSender := by
  obtain ⟨n, r, hrun⟩ : ∃ n r, run (netStep 1) (Net.boot twoVars true)
      [.accept 0, .recv 0 [readRequest 0] calm] = some (n, [r]) := ⟨_, _, rfl⟩
  have hlast : r.before.accepted.head? = some r.pcb := by
    have hread := read_run (fun x => x.2.map fun r => decide (r.before.accepted.head? = some r.pcb))
      hrun (v := [true]) (by decide)
    simpa using hread
  refine ⟨n, r, hrun, (replies_to_sender_iff twoVars true _ hrun).mpr ?_ r List.mem_cons_self⟩
  intro r' hr' _ _
  rw [List.mem_singleton.mp hr']
  exact hlast

/-- Two clients, and a request of the one accepted first: the reply is queued on the
connection of the other. -/
theorem reply_on_other_connection :
    ∃ n r, run (netStep 1) (Net.boot twoVars true)
        [.accept 0, .accept 1, .recv 0 [readRequest 0] calm] = some (n, [r]) ∧
      r.pcb = 0 ∧ (r.before.pcbs 1).queue.length = 0 ∧ (r.after.pcbs 1).queue.length = 1 ∧
      ¬ r.ToSender := by
  obtain ⟨n, r, hrun⟩ : ∃ n r, run (netStep 1) (Net.boot twoVars true)
      [.accept 0, .accept 1, .recv 0 [readRequest 0] calm] = some (n, [r]) := ⟨_, _, rfl⟩
  have hread := read_run (fun x => x.2.map fun r =>
    (r.pcb, (r.before.pcbs 1).queue.length, (r.after.pcbs 1).queue.length)) hrun
    (v := [(0, 0, 1)]) (by decide)
  obtain ⟨hpcb, hbefore, hafter⟩ : r.pcb = 0 ∧ (r.before.pcbs 1).queue.length = 0 ∧
      (r.after.pcbs 1).queue.length = 1 := by simpa using hread
  refine ⟨n, r, hrun, hpcb, hbefore, hafter, fun hto => ?_⟩
  have hone : (1 : Pcb) = r.pcb := hto 1 fun heq => by
    rw [heq, hbefore] at hafter
    cases hafter
  rw [hpcb] at hone
  cases hone

/-! ### The bytes of a reply -/

/-- The bytes TCP would transmit for a queued entry now. -/
def Net.transmitted (n : Net) (c : Chunk) : List UInt8 :=
  match c.payload with
  | .ref => n.mSendBuf.take c.len
  | .copied bytes => bytes.take c.len

/-- Whatever TCP transmits now, for whichever connection, is a reply as it was
built. -/
def Net.Faithful (n : Net) : Prop :=
  ∀ q, ∀ c ∈ (n.pcbs q).queue, n.transmitted c = c.built

/-- When the reply is built, every reply still queued has the same bytes, and there
is room for all of it. -/
def Reply.Undisturbed (r : Reply) : Prop :=
  (∀ q, ∀ c ∈ (r.before.pcbs q).queue, c.built = frameBytes r.msg) ∧
    ∀ pcb, r.Queues pcb → 11 ≤ (r.before.pcbs pcb).sndBuf

/-- The invariant: every entry is a reference to a reply of eleven bytes, and is
transmitted as it was built. -/
structure SendInv (n : Net) : Prop where
  buf : n.mSendBuf.length = 11
  ref : ∀ q, ∀ c ∈ (n.pcbs q).queue, c.payload = .ref ∧ c.built.length = 11
  faithful : n.Faithful

theorem Reply.sendBuf_eq {r : Reply} (h : r.before.mSendBuf.length = 11) :
    r.sendBuf = frameBytes r.msg := by
  rw [Reply.sendBuf, List.drop_of_length_le (by omega), List.append_nil]

/-- Building a reply leaves the queued ones as they are iff they have its bytes. -/
theorem SendInv.built_faithful_iff {r : Reply} (h : SendInv r.before) :
    r.built.Faithful ↔ ∀ q, ∀ c ∈ (r.before.pcbs q).queue, c.built = frameBytes r.msg := by
  have hsend := Reply.sendBuf_eq h.buf
  refine forall_congr' fun q => forall_congr' fun c => forall_congr' fun hc => ?_
  obtain ⟨href, hlen⟩ := h.ref q c hc
  -- what was transmitted before had eleven bytes, so the entry is not cut short
  have hold := h.faithful q c hc
  have hcut : 11 ≤ c.len := by
    have := congrArg List.length hold
    rw [Net.transmitted, href] at this
    simp only [List.length_take, h.buf, hlen] at this
    omega
  have hnew : r.built.transmitted c = frameBytes r.msg := by
    rw [Net.transmitted, href]
    show r.sendBuf.take c.len = _
    rw [hsend, List.take_of_length_le (by simpa using hcut)]
  rw [hnew]
  exact ⟨Eq.symm, Eq.symm⟩

/-- The new entry is transmitted whole iff there was room for it. -/
theorem SendInv.new_transmitted_iff {r : Reply} (h : SendInv r.before) (pcb : Pcb) :
    r.built.transmitted ⟨min (r.before.pcbs pcb).sndBuf 11, .ref, r.sendBuf⟩ = r.sendBuf ↔
      11 ≤ (r.before.pcbs pcb).sndBuf := by
  show r.sendBuf.take (min (r.before.pcbs pcb).sndBuf 11) = r.sendBuf ↔ _
  have hlen : r.sendBuf.length = 11 := by rw [Reply.sendBuf_eq h.buf, frameBytes_length]
  rw [List.take_eq_self_iff, hlen]
  omega

/-- Queueing adds one entry to one connection. -/
theorem Reply.mem_queue_setPcb {r : Reply} {pcb q : Pcb} {c : Chunk} :
    c ∈ ((r.built.setPcb pcb (r.queued pcb)).pcbs q).queue ↔
      c ∈ (r.before.pcbs q).queue ∨
        q = pcb ∧ c = ⟨min (r.before.pcbs pcb).sndBuf 11, .ref, r.sendBuf⟩ := by
  show c ∈ (Function.update r.before.pcbs pcb (r.queued pcb) q).queue ↔ _
  by_cases hqp : q = pcb
  · subst hqp
    rw [Function.update_self]
    simp [Reply.queued]
  · rw [Function.update_of_ne hqp]
    simp [hqp]

/-- Replacing a connection by one that queues nothing new adds no entry. -/
theorem mem_queue_of_mem_update {pcbs : Pcb → TcpPcb} {pcb q : Pcb} {p : TcpPcb} {c : Chunk}
    (hp : ∀ c ∈ p.queue, c ∈ (pcbs pcb).queue) (hc : c ∈ (Function.update pcbs pcb p q).queue) :
    c ∈ (pcbs q).queue := by
  by_cases hqp : q = pcb
  · subst hqp
    rw [Function.update_self] at hc
    exact hp c hc
  · rwa [Function.update_of_ne hqp] at hc

/-- The invariant looks at the entries one by one, so it survives losing some. -/
theorem SendInv.of_subset {n n' : Net} (h : SendInv n) (hbuf : n'.mSendBuf = n.mSendBuf)
    (hsub : ∀ q c, c ∈ (n'.pcbs q).queue → c ∈ (n.pcbs q).queue) : SendInv n' where
  buf := by rw [hbuf]; exact h.buf
  ref q c hc := h.ref q c (hsub q c hc)
  faithful q c hc := by
    have hold := h.faithful q c (hsub q c hc)
    rwa [Net.transmitted, ← hbuf] at hold

/-- Behind a call everything is transmitted as it was built iff the call disturbed
nothing. -/
theorem SendInv.after_faithful_iff {r : Reply} (h : SendInv r.before) :
    r.after.Faithful ↔ r.Undisturbed := by
  have hbuilt := h.built_faithful_iff
  rcases r.after_cases with ⟨pcb, hq, hafter⟩ | ⟨hnone, hafter⟩
  · rw [hafter]
    constructor
    -- the old entries and the new one, one by one
    · intro hf
      refine ⟨hbuilt.mp fun q c hc => hf q c (Reply.mem_queue_setPcb.mpr (.inl hc)), ?_⟩
      intro q hq'
      have hqp : q = pcb := Option.some.inj (hq'.2.1.symm.trans hq.2.1)
      rw [hqp]
      exact (h.new_transmitted_iff pcb).mp
        (hf pcb _ (Reply.mem_queue_setPcb.mpr (.inr ⟨rfl, rfl⟩)))
    · rintro ⟨hsame, hroom⟩ q c hc
      rcases Reply.mem_queue_setPcb.mp hc with hc | ⟨-, rfl⟩
      · exact hbuilt.mpr hsame q c hc
      · exact (h.new_transmitted_iff pcb).mpr (hroom pcb hq)
  · rw [hafter, hbuilt]
    exact ⟨fun h => ⟨h, fun pcb hq => absurd hq (hnone pcb)⟩, fun h => h.1⟩

/-- As long as that is so, the invariant holds on. -/
theorem SendInv.after {r : Reply} (h : SendInv r.before) (hf : r.after.Faithful) :
    SendInv r.after := by
  have hbuf : r.sendBuf.length = 11 := by rw [Reply.sendBuf_eq h.buf, frameBytes_length]
  rcases r.after_cases with ⟨pcb, hq, hafter⟩ | ⟨hnone, hafter⟩
  · refine ⟨?_, fun q c hc => ?_, hf⟩
    · rw [hafter]
      exact hbuf
    · rw [hafter] at hc
      rcases Reply.mem_queue_setPcb.mp hc with hc | ⟨-, rfl⟩
      · exact h.ref q c hc
      · exact ⟨rfl, hbuf⟩
  · refine ⟨?_, ?_, hf⟩
    · rw [hafter]
      exact hbuf
    · rw [hafter]
      exact h.ref

theorem undisturbed_rule :
    NetRule SendInv (fun r => r.after.Faithful) Reply.Undisturbed where
  reply r hP := ⟨by simpa using hP.after_faithful_iff, fun hR => hP.after (hR r List.mem_cons_self)⟩
  accept n pcb hP := hP.of_subset rfl fun q c hc =>
    mem_queue_of_mem_update (fun c hc => absurd hc List.not_mem_nil) hc
  tcp n pcb acked sndBuf state hP := hP.of_subset rfl fun q c hc =>
    mem_queue_of_mem_update (fun c hc => List.mem_of_mem_drop hc) hc
  frame n sys recvBuf netInitOk hP := ⟨hP.buf, hP.ref, hP.faithful⟩

/-- **TCP sends the replies as they were built** at every moment of exactly those
runs in which no reply is built while a different one is still queued, and none
is queued without room for all its bytes. -/
theorem replies_faithful_iff {fuel : ℕ} (sys : Sys) (netInitOk : Bool) (ops : List NetOp)
    {n : Net} {rs : List Reply}
    (hrun : run (netStep fuel) (Net.boot sys netInitOk) ops = some (n, rs)) :
    ((∀ r ∈ rs, r.after.Faithful) ∧ n.Faithful) ↔ ∀ r ∈ rs, r.Undisturbed := by
  have hboot : SendInv (Net.boot sys netInitOk) :=
    ⟨rfl, fun _ _ hc => absurd hc List.not_mem_nil, fun _ _ hc => absurd hc List.not_mem_nil⟩
  obtain ⟨hiff, hinv⟩ := undisturbed_rule.run hboot hrun
  exact ⟨fun h => hiff.mp h.1, fun h => ⟨hiff.mpr h, (hinv (hiff.mpr h)).faithful⟩⟩

/-- One request, its reply acknowledged, and another one: both replies are sent as
they were built. -/
theorem replies_faithful_iff_acknowledged :
    ∃ n r r', run (netStep 1) (Net.boot twoVars true)
        [.accept 0, .recv 0 [readRequest 0] calm, .tcp 0 1 tcpSndBuf .established,
          .recv 0 [readRequest 1] calm] = some (n, [r, r']) ∧
      r.after.Faithful ∧ r'.after.Faithful ∧ n.Faithful := by
  obtain ⟨n, r, r', hrun⟩ : ∃ n r r', run (netStep 1) (Net.boot twoVars true)
      [.accept 0, .recv 0 [readRequest 0] calm, .tcp 0 1 tcpSndBuf .established,
        .recv 0 [readRequest 1] calm] = some (n, [r, r']) := ⟨_, _, _, rfl⟩
  -- at both replies nothing is queued anywhere, and the window is open
  have hidle : ∀ q, [(if q = 0 then tcpSndBuf else 0, []), (if q = 0 then tcpSndBuf else 0, [])]
      = [r, r'].map fun r => ((r.before.pcbs q).sndBuf, (r.before.pcbs q).queue) := by
    intro q
    have h := congrArg (Option.map fun x => x.2.map fun r =>
      ((r.before.pcbs q).sndBuf, (r.before.pcbs q).queue)) hrun
    cases q with
    | zero => exact Option.some.inj h
    | succ q => exact Option.some.inj h
  have hcalm : ∀ r'' ∈ [r, r'], r''.Undisturbed := by
    intro r'' hr''
    have hq : ∀ q, (r''.before.pcbs q).sndBuf = (if q = 0 then tcpSndBuf else 0) ∧
        (r''.before.pcbs q).queue = [] := by
      intro q
      have hmem := List.mem_map_of_mem
        (f := fun r : Reply => ((r.before.pcbs q).sndBuf, (r.before.pcbs q).queue)) hr''
      rw [← hidle q] at hmem
      simpa using hmem
    refine ⟨fun q c hc => ?_, fun q hqueue => ?_⟩
    · rw [(hq q).2] at hc
      cases hc
    · have hpos := hqueue.2.2.2.2.1
      rw [(hq q).1] at hpos ⊢
      split_ifs at hpos ⊢
      · decide
      · exact absurd hpos (lt_irrefl 0)
  obtain ⟨hall, hn⟩ := (replies_faithful_iff twoVars true _ hrun).mpr hcalm
  exact ⟨n, r, r', hrun, hall r (by simp), hall r' (by simp), hn⟩

/-- Two requests in one delivery: TCP would send the second reply in place of the
first. -/
theorem first_reply_overwritten :
    ∃ n rs, run (netStep 1) (Net.boot twoVars true)
        [.accept 0, .recv 0 [readRequest 0 ++ readRequest 1] calm] = some (n, rs) ∧
      ¬ ((∀ r ∈ rs, r.after.Faithful) ∧ n.Faithful) := by
  obtain ⟨n, r, r', hrun⟩ : ∃ n r r', run (netStep 1) (Net.boot twoVars true)
      [.accept 0, .recv 0 [readRequest 0 ++ readRequest 1] calm] = some (n, [r, r']) :=
    ⟨_, _, _, rfl⟩
  refine ⟨n, [r, r'], hrun, fun h => ?_⟩
  have hread := read_run (fun x => (x.1.pcbs 0).queue.map fun c => x.1.transmitted c == c.built) hrun
    (v := [false, true]) (by decide)
  have hall : (n.pcbs 0).queue.map (fun c => n.transmitted c == c.built)
      = (n.pcbs 0).queue.map fun _ => true :=
    List.map_congr_left fun c hc => beq_iff_eq.mpr (h.2 0 c hc)
  rw [hread, List.map_const'] at hall
  exact absurd (hall ▸ List.mem_cons_self : false ∈ List.replicate (n.pcbs 0).queue.length true)
    (by simp)

end Start01
