/-
Start01/Network.lean

The TCP server of network.c over the parser and `Cmd_Service`: connections are
accepted, deliveries are parsed, and every reply goes from `AckCommMsg` through
`network_send_data` and `send_data` into a queue of lwIP.

Of lwIP the model keeps what decides the bytes on the wire: a connection has a
state, the room left in its send buffer and the queue of what `tcp_write` took,
oldest first.  An entry of the queue is a reference to the caller's buffer, or a
copy where `TCP_WRITE_FLAG_COPY` is given, as in `tcp_enqueue`.  `tcp_output` only
moves entries from the unsent to the unacknowledged part of that queue.  TCP may
transmit any entry again until it is acknowledged, so what it would transmit is a
function of the state (`transmitted`).

Two ghosts record history: the bytes in the caller's buffer when an entry was
queued, and the list of connections accepted so far.

Whether memory was available in `tcp_write`, and what `tcp_output` returned, is
chosen by the environment (`TcpEnv`).  The other code of the firmware may change
the command tables, the parameters and the memory in any way (`NetOp.other`).
-/
import Start01.Comm
import Start01.Recv
import Start01.Lib.Run

namespace Start01

open Run

/-! ### Connections -/

/-- A `struct tcp_pcb *`. -/
abbrev Pcb := ℕ

/-- `enum tcp_state`. -/
inductive TcpState
  | closed | listen | synSent | synRcvd | established | finWait1 | finWait2 | closeWait | closing
  | lastAck | timeWait
deriving DecidableEq

/-- Where the bytes of a queued entry are. -/
inductive Payload
  /-- In the buffer of the caller, that is in `m_send_buf`. -/
  | ref
  /-- In memory of the stack. -/
  | copied (bytes : List UInt8)

/-- What one `tcp_write` queued. -/
structure Chunk where
  len : ℕ
  payload : Payload
  /-- Ghost: the caller's buffer at the call. -/
  built : List UInt8

/-- What the model keeps of `struct tcp_pcb`. -/
structure TcpPcb where
  state : TcpState
  sndBuf : ℕ
  queue : List Chunk

/-- The codes `tcp_write` and `tcp_output` return. -/
inductive ErrT
  | ok | mem | conn

/-- The choices of the environment in one `send_data`. -/
structure TcpEnv where
  memOk : Bool
  output : ErrT

/-- `TCP_WRITE_FLAG_COPY`. -/
def tcpWriteFlagCopy : UInt8 := 1

/-- `TCP_SND_BUF`. -/
def tcpSndBuf : ℕ := 8192

/-- `tcp_write(pcb, data, len, apiflags)` on the bytes of `data`. -/
def tcpWrite (env : TcpEnv) (p : TcpPcb) (data : List UInt8) (len : ℕ) (apiflags : UInt8) :
    ErrT × TcpPcb :=
  if p.state = .established ∨ p.state = .closeWait ∨ p.state = .synSent ∨ p.state = .synRcvd then
    if 0 < len then
      if p.sndBuf < len ∨ env.memOk = false then (.mem, p)
      else
        let payload :=
          if apiflags &&& tcpWriteFlagCopy ≠ 0 then Payload.copied (data.take len) else .ref
        (.ok, { p with sndBuf := p.sndBuf - len, queue := p.queue ++ [⟨len, payload, data⟩] })
    else (.ok, p)
  else (.conn, p)

/-! ### The server -/

/-- The statics of network.c and `m_send_buf`, with the rest of the firmware. -/
structure Net where
  sys : Sys
  recvBuf : RecvBuf
  netInitOk : Bool
  peerPcb : Option Pcb
  pcbs : Pcb → TcpPcb
  mSendBuf : List UInt8
  /-- Ghost: the connections accepted so far, the last one first. -/
  accepted : List Pcb

/-- `*pcb = p`. -/
def Net.setPcb (n : Net) (pcb : Pcb) (p : TcpPcb) : Net :=
  { n with pcbs := Function.update n.pcbs pcb p }

/-- `send_data(pcb, data, data_len)` with `data` being `m_send_buf`: the value
returned and the state. -/
def sendData (env : TcpEnv) (n : Net) (pcb : Pcb) (dataLen : ℕ) : ℕ × Net :=
  let p := n.pcbs pcb
  let len := if p.sndBuf < dataLen then p.sndBuf else dataLen
  let r := tcpWrite env p n.mSendBuf len 0
  let n := n.setPcb pcb r.2
  match r.1, env.output with
  | .ok, .ok => (len, n)
  | _, _ => (0, n)

/-- `network_send_data(chan, data, len)`. -/
def networkSendData (env : TcpEnv) (n : Net) (chan : TDataChan) (len : ℕ) : ℕ × Net :=
  if n.netInitOk = false then (0, n)
  else
    match n.peerPcb with
    | none => (0, n)
    | some pcb =>
        if (n.pcbs pcb).state = .established then
          if chan = chanEth0 then sendData env n pcb len else (0, n)
        else (0, n)

/-- `AckCommMsg(msg, dest, network_send_data)`. -/
def ackReply (env : TcpEnv) (n : Net) (dest : TDataChan) (msg : TCommMsg) : Net :=
  let r := buildDebugMsgBuf (some msg) (some n.mSendBuf) 11
  (networkSendData env { n with mSendBuf := r.2.getD n.mSendBuf } dest r.1.toNat).2

/-- One call of `AckCommMsg` while a request of `pcb` is served. -/
structure Reply where
  pcb : Pcb
  env : TcpEnv
  before : Net
  dest : TDataChan
  msg : TCommMsg

/-- The state behind the call. -/
def Reply.after (r : Reply) : Net := ackReply r.env r.before r.dest r.msg

/-- The calls of `AckCommMsg` in a list of events, in order. -/
def replies (pcb : Pcb) (env : ℕ → TcpEnv) : Net × List Reply → List Event → Net × List Reply
  | acc, [] => acc
  | (n, rs), .ack dest msg :: evs =>
      let r : Reply := ⟨pcb, env rs.length, n, dest, msg⟩
      replies pcb env (r.after, rs ++ [r]) evs
  | acc, _ :: evs => replies pcb env acc evs

/-- `Cmd_Service(CHAN_ETH0, msg, network_send_data)` for the parser. -/
def netService (fuel : ℕ) (pcb : Pcb) (env : ℕ → TcpEnv) (acc : Net × List Reply) (_i : ℕ)
    (msg : TCommMsg) : Option (Net × List Reply) :=
  (cmdService fuel acc.1.sys chanEth0 msg true).map fun r =>
    replies pcb env ({ acc.1 with sys := r.2.1 }, acc.2) r.2.2

/-- `socket_accept(arg, pcb, err)`, for the connection lwIP has just set up. -/
def socketAccept (n : Net) (pcb : Pcb) : Net :=
  { n with
    peerPcb := some pcb
    pcbs := Function.update n.pcbs pcb ⟨.established, tcpSndBuf, []⟩
    accepted := pcb :: n.accepted }

/-- What may happen next. -/
inductive NetOp
  /-- `socket_accept` is called. -/
  | accept (pcb : Pcb)
  /-- `socket_recv` is called with the bytes of a delivery. -/
  | recv (pcb : Pcb) (p : List (List UInt8)) (env : ℕ → TcpEnv)
  /-- TCP makes progress: the `acked` oldest entries are acknowledged. -/
  | tcp (pcb : Pcb) (acked : ℕ) (sndBuf : ℕ) (state : TcpState)
  /-- `network_set_ok(ok)`. -/
  | networkSetOk (ok : Bool)
  /-- Other code of the firmware runs. -/
  | other (sys : Sys)

/-- One step: the state and the replies built.  `socket_recv` is only called on a
connection that was accepted. -/
def netStep (fuel : ℕ) (n : Net) : NetOp → Option (Net × List Reply)
  | .accept pcb => some (socketAccept n pcb, [])
  | .recv pcb p env =>
      if pcb ∈ n.accepted then
        (socketRecv (netService fuel pcb env) n.recvBuf p (n, [])).map fun r =>
          ({ r.1.1 with recvBuf := r.2 }, r.1.2)
      else none
  | .tcp pcb acked sndBuf state =>
      some (n.setPcb pcb ⟨state, sndBuf, (n.pcbs pcb).queue.drop acked⟩, [])
  | .networkSetOk ok => some ({ n with netInitOk := ok }, [])
  | .other sys => some ({ n with sys := sys }, [])

/-- Before the first connection. -/
def Net.boot (sys : Sys) (netInitOk : Bool) : Net where
  sys := sys
  recvBuf := RecvBuf.zero
  netInitOk := netInitOk
  peerPcb := none
  pcbs := fun _ => ⟨.closed, 0, []⟩
  mSendBuf := List.replicate 11 0
  accepted := []

/-! ### One rule for all runs -/

/-- `P` is an invariant as long as the replies are all in `R`, which they are as
long as they are all in `C`.  Only `AckCommMsg` has to be looked at. -/
structure NetRule (P : Net → Prop) (R C : Reply → Prop) : Prop where
  reply : ∀ r : Reply, P r.before → Verdict P R C r.after [r]
  accept : ∀ n pcb, P n → P (socketAccept n pcb)
  tcp : ∀ n pcb acked sndBuf state, P n →
    P (n.setPcb pcb ⟨state, sndBuf, (n.pcbs pcb).queue.drop acked⟩)
  frame : ∀ n sys recvBuf netInitOk, P n →
    P { n with sys := sys, recvBuf := recvBuf, netInitOk := netInitOk }

theorem NetRule.replies {P : Net → Prop} {R C : Reply → Prop} (h : NetRule P R C) (pcb : Pcb)
    (env : ℕ → TcpEnv) {evs : List Event} :
    ∀ {n : Net} {rs : List Reply}, Verdict P R C n rs →
      Verdict P R C (replies pcb env (n, rs) evs).1 (replies pcb env (n, rs) evs).2 := by
  induction evs with
  | nil => exact fun hv => hv
  | cons ev evs ih =>
    intro n rs hv
    cases ev with
    | ack dest msg => exact ih (hv.append fun hP => h.reply ⟨pcb, env rs.length, n, dest, msg⟩ hP)
    | handler a src msg => exact ih hv
    | devWrite dev off data ok => exact ih hv
    | ackNull => exact ih hv

/-- **Service step.** -/
theorem NetRule.netService {P : Net → Prop} {R C : Reply → Prop} (h : NetRule P R C) {fuel : ℕ}
    {pcb : Pcb} {env : ℕ → TcpEnv} {acc acc' : Net × List Reply} {i : ℕ} {msg : TCommMsg}
    (hv : Verdict P R C acc.1 acc.2) (hserve : netService fuel pcb env acc i msg = some acc') :
    Verdict P R C acc'.1 acc'.2 := by
  obtain ⟨⟨ret, sys, evs⟩, -, rfl⟩ := Option.map_eq_some_iff.mp hserve
  exact h.replies pcb env ⟨hv.1, fun hR => h.frame acc.1 sys acc.1.recvBuf acc.1.netInitOk (hv.2 hR)⟩

/-- **Delivery step.** -/
theorem NetRule.step {P : Net → Prop} {R C : Reply → Prop} (h : NetRule P R C) {fuel : ℕ}
    (n : Net) (op : NetOp) (n' : Net) (rs : List Reply) (hP : P n)
    (hstep : netStep fuel n op = some (n', rs)) : Verdict P R C n' rs := by
  cases op with
  | accept pcb =>
    obtain ⟨rfl, rfl⟩ := Prod.mk.injEq .. ▸ Option.some.inj hstep
    exact .nil (h.accept n pcb hP)
  | tcp pcb acked sndBuf state =>
    obtain ⟨rfl, rfl⟩ := Prod.mk.injEq .. ▸ Option.some.inj hstep
    exact .nil (h.tcp n pcb acked sndBuf state hP)
  | networkSetOk ok =>
    obtain ⟨rfl, rfl⟩ := Prod.mk.injEq .. ▸ Option.some.inj hstep
    exact .nil (h.frame n n.sys n.recvBuf ok hP)
  | other sys =>
    obtain ⟨rfl, rfl⟩ := Prod.mk.injEq .. ▸ Option.some.inj hstep
    exact .nil (h.frame n sys n.recvBuf n.netInitOk hP)
  | recv pcb p env =>
    simp only [netStep] at hstep
    split at hstep
    · -- the verdict is an invariant of the parser's calls
      obtain ⟨⟨⟨n₁, rs₁⟩, b⟩, hrecv, heq⟩ := Option.map_eq_some_iff.mp hstep
      obtain ⟨rfl, rfl⟩ := Prod.mk.injEq .. ▸ heq
      rw [socketRecv_eq] at hrecv
      obtain ⟨acc, hserve, heq⟩ := Option.map_eq_some_iff.mp hrecv
      obtain ⟨rfl, rfl⟩ := Prod.mk.injEq .. ▸ heq
      have hv := serveFrames_invariant (fun acc => Verdict P R C acc.1 acc.2)
        (fun _ _ _ _ hv hs => h.netService hv hs) (Verdict.nil hP) hserve
      exact ⟨hv.1, fun hR => h.frame _ _ _ _ (hv.2 hR)⟩
    · cases hstep

/-- **Run rule.** -/
theorem NetRule.run {P : Net → Prop} {R C : Reply → Prop} (h : NetRule P R C) {fuel : ℕ}
    {ops : List NetOp} {n n' : Net} {rs : List Reply} (hP : P n)
    (hrun : run (netStep fuel) n ops = some (n', rs)) : Verdict P R C n' rs :=
  run_verdict h.step hP hrun

end Start01
