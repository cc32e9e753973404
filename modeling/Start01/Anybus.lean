/-
Start01/Anybus.lean

Telegrams from the Anybus module.  The driver calls `SYS_ReStartSerialComm` with the
length of the next telegram; this opens the port "ttystm2", which
`stm32_serial_init` has registered, unless it is open already.  Every fifth call of
`anybus_timeout` looks how many bytes the receive FIFO holds, and if these are
enough, takes them all out and hands the buffer to the driver.

The port may also have been opened before, by `init_usart`.  Opening takes memory
from the heap and sets up hardware, and may fail; how it ends is an input.

Three ghosts record what delivery is about: the bytes received, how many there were
at the latest restart, and how many have been taken out of the FIFO.

A restart does not clear the reception, and a poll takes out a part of a telegram
together with whole ones.  `AnybusSafe` excludes both, and a byte lost in a full
FIFO; along such runs every telegram is delivered as it should be
(`anybus_telegrams`).
-/
import Start01.SerialRx

namespace Start01

open Ring Run

/-! ### The port -/

/-- How `usart_open` of a closed port ends: there is no memory for the receive FIFO or
none for the transmit FIFO, the driver fails, or the port is open.  A receive FIFO
is on the buffer given. -/
inductive OpenResult
  | noRxFifo
  | noTxFifo (buffer : ℕ → UInt8)
  | failed (buffer : ℕ → UInt8)
  | opened (buffer : ℕ → UInt8)

/-- `rx_fifo` after the attempt; `none` is NULL. -/
def OpenResult.rxFifo : OpenResult → Option Kfifo
  | .noRxFifo => none
  | .noTxFifo buffer | .failed buffer | .opened buffer => some (kfifoInitStatic buffer maxUsartBuf)

/-- `open_flag` after the attempt. -/
def OpenResult.openFlag : OpenResult → Bool
  | .opened _ => true
  | _ => false

/-- The port of the module, with its FIFO. -/
structure Anybus where
  /-- `anybus_usart` is not NULL. -/
  anybusUsart : Bool
  openFlag : Bool
  rxFifo : Option Kfifo
  anybusRecvLen : UInt16
  cnt : Int32
  anybusRecvBuf : ℕ → UInt8
  /-- Ghost: the bytes received. -/
  received : List UInt8
  /-- Ghost: how many they were at the latest restart. -/
  since : Option ℕ
  /-- Ghost: how many of them are older than the last byte taken out. -/
  taken : ℕ

/-- Before the first restart; the port is closed, or has been opened by another part of
the program. -/
def Anybus.boot (port : Option (ℕ → UInt8)) : Anybus where
  anybusUsart := false
  openFlag := port.isSome
  rxFifo := port.map fun buffer => kfifoInitStatic buffer maxUsartBuf
  anybusRecvLen := 5
  cnt := 0
  anybusRecvBuf := fun _ => 0
  received := []
  since := none
  taken := 0

/-- A poll that has looked at the FIFO, with the ghosts before it, and the buffer
handed to `APDR_SerialTelegramReceived`, if any. -/
structure Poll where
  received : List UInt8
  since : Option ℕ
  taken : ℕ
  len : UInt16
  telegram : Option (ℕ → UInt8)

namespace Anybus

/-- `usart_open`. -/
def usartOpen (s : Anybus) (result : OpenResult) : Anybus :=
  if s.openFlag then s else { s with rxFifo := result.rxFifo, openFlag := result.openFlag }

/-- `SYS_ReStartSerialComm`. -/
def restart (s : Anybus) (n : UInt16) (result : OpenResult) : Anybus :=
  usartOpen { s with
    anybusRecvLen := n
    anybusUsart := true
    since := some s.received.length } result

/-- `usart_getdatasize(anybus_usart)`; there is no value if `rx_fifo` is NULL. -/
def getdatasize (s : Anybus) : Option UInt32 :=
  if s.anybusUsart then s.rxFifo.map kfifoLen else some 0

/-- `usart_getpacket(anybus_usart, anybus_recv_buf, len)`, for the bytes the FIFO holds. -/
def getpacket (s : Anybus) (len : UInt32) : Option Anybus :=
  if s.anybusUsart then do
    let fifo ← s.rxFifo
    let (_, bs, fifo) ← kfifoGet fifo len
    return { s with
      rxFifo := some fifo
      anybusRecvBuf := fun i => bs.getD i (s.anybusRecvBuf i)
      taken := s.received.length - fifo.used }
  else some s

/-- The poll that `anybus_timeout` makes every fifth time. -/
def poll (s : Anybus) : Option (Anybus × List Poll) := do
  let size ← s.getdatasize
  let len := size.toInt32
  if len ≥ s.anybusRecvLen.toUInt32.toInt32 then
    let s' ← s.getpacket len.toUInt32
    return (s', [⟨s.received, s.since, s.taken, s.anybusRecvLen, some s'.anybusRecvBuf⟩])
  else return (s, [⟨s.received, s.since, s.taken, s.anybusRecvLen, none⟩])

/-- `anybus_timeout`. -/
def timeout (s : Anybus) : Option (Anybus × List Poll) :=
  if s.cnt % 5 = 0 then poll { s with cnt := s.cnt + 1 } else some ({ s with cnt := s.cnt + 1 }, [])

/-- `usart_irq_route`, with a byte received; a closed port receives nothing. -/
def receive (s : Anybus) (c : UInt8) : Option Anybus :=
  if s.openFlag then do
    let fifo ← s.rxFifo
    let fifo ← kfifoPutc fifo c
    return { s with rxFifo := some fifo, received := s.received ++ [c] }
  else some s

end Anybus

/-- The calls of the driver and the interrupt. -/
inductive AnybusOp
  | restart (n : UInt16) (result : OpenResult)
  | timeout
  | receive (c : UInt8)

/-- One step, with the poll that it makes. -/
def anybusStep (s : Anybus) : AnybusOp → Option (Anybus × List Poll)
  | .restart n result => some (s.restart n result, [])
  | .timeout => s.timeout
  | .receive c => (s.receive c).map fun s' => (s', [])

/-! ### What is asked -/

/-- The buffer starts with the bytes received from number `k` on. -/
def StartsAt (p : Poll) (telegram : ℕ → UInt8) (k : ℕ) : Prop :=
  k + p.len.toNat ≤ p.received.length ∧
    ∀ i < p.len.toNat, p.received[k + i]? = some (telegram i)

/-- A telegram handed over begins a whole number of telegrams after the restart; and if
as many bytes as it has are unread since the restart, it is handed over. -/
structure Poll.Right (p : Poll) : Prop where
  aligned : ∀ telegram, p.telegram = some telegram →
    ∃ start k, p.since = some start ∧ StartsAt p telegram (start + k * p.len.toNat)
  delivered : ∀ start, p.since = some start →
    p.len.toNat ≤ p.received.length - max start p.taken →
    ∃ telegram, p.telegram = some telegram ∧ StartsAt p telegram (max start p.taken)

/-- The telegram lengths the link layer asks for. -/
def AnybusOp.Lengthy : AnybusOp → Prop
  | .restart n _ => 19 ≤ n ∧ n ≤ 275
  | _ => True

/-- A restart finds nothing in the FIFO of an open port, a poll finds less than a
telegram or whole telegrams, and a byte finds room. -/
def AnybusSafe (s : Anybus) : AnybusOp → Prop
  | .restart _ _ => s.openFlag → ∀ fifo ∈ s.rxFifo, fifo.used = 0
  | .timeout => s.cnt % 5 = 0 → s.anybusUsart → ∀ fifo ∈ s.rxFifo,
      fifo.used < s.anybusRecvLen.toNat ∨ s.anybusRecvLen.toNat ∣ fifo.used
  | .receive _ => s.openFlag → ∀ fifo ∈ s.rxFifo, fifo.used ≠ fifo.size.toNat

/-! ### The invariant -/

/-- The lengths are compared as signed numbers, which does not matter. -/
theorem toInt32_le_toInt32 {len : UInt32} {n : UInt16} (h : len.toNat < 2147483648) :
    n.toUInt32.toInt32 ≤ len.toInt32 ↔ n.toNat ≤ len.toNat := by
  have key : ∀ x : UInt32, x.toNat < 2147483648 → x.toInt32.toInt = x.toNat := fun x hx =>
    BitVec.toInt_eq_toNat_of_lt (show 2 * x.toNat < 4294967296 by omega)
  have hn := n.toNat_lt
  have hn' : n.toUInt32.toNat = n.toNat := n.toNat_toUInt32
  rw [Int32.le_iff_toInt_le, key len h, key n.toUInt32 (by omega), hn', Int.ofNat_le]

/-- The FIFO holds the last bytes received. -/
structure Kfifo.Holds (fifo : Kfifo) (received : List UInt8) : Prop where
  valid : fifo.Valid
  size : fifo.size = maxUsartBuf
  used_le : fifo.used ≤ received.length
  queue : fifo.queue = received.drop (received.length - fifo.used)

namespace Kfifo.Holds

variable {fifo : Kfifo} {received : List UInt8}

theorem init (buffer : ℕ → UInt8) (received : List UInt8) :
    (kfifoInitStatic buffer maxUsartBuf).Holds received := by
  obtain ⟨hv, hq⟩ := @kfifoInitStatic_valid buffer maxUsartBuf ⟨7, by omega, rfl⟩
  have hused := queue_eq_nil_iff.mp hq
  refine ⟨hv, rfl, by rw [hused]; exact Nat.zero_le _, ?_⟩
  rw [hq, hused, Nat.sub_zero, List.drop_length]

theorem small (h : fifo.Holds received) : (kfifoLen fifo).toNat < 2147483648 := by
  have hle := h.valid.used_le
  rw [h.size] at hle
  exact hle.trans_lt (by decide)

/-- A byte is received, and there is room for it. -/
theorem putc (h : fifo.Holds received) (hroom : fifo.used ≠ fifo.size.toNat) (c : UInt8) :
    ∃ fifo', kfifoPutc fifo c = some fifo' ∧ fifo'.Holds (received ++ [c]) ∧
      fifo'.used = fifo.used + 1 := by
  obtain ⟨fifo', hput, hv, hsize, hq⟩ := h.valid.putc c
  rw [if_neg hroom] at hq
  have hle := h.used_le
  have hused : fifo'.used = fifo.used + 1 := by
    rw [← fifo'.queue_length, hq, List.length_append, fifo.queue_length]
    rfl
  refine ⟨fifo', hput, ⟨hv, hsize.trans h.size, ?_, ?_⟩, hused⟩
  · rw [hused, List.length_append]
    exact Nat.succ_le_succ hle
  · rw [hused, List.length_append, List.length_singleton, Nat.add_sub_add_right, hq, h.queue,
      List.drop_append_of_le_length (Nat.sub_le _ _)]

/-- All bytes are taken out. -/
theorem get (h : fifo.Holds received) :
    ∃ n fifo', kfifoGet fifo (kfifoLen fifo) = some (n, fifo.queue, fifo') ∧
      fifo'.Holds received ∧ fifo'.used = 0 := by
  obtain ⟨n, fifo', hget, hv, hsize, hn, hq⟩ := h.valid.get (kfifoLen fifo)
  have hn' : n.toNat = fifo.queue.length := by
    rw [hn, queue_length]
    exact min_self _
  rw [hn', List.drop_length] at hq
  rw [hn', List.take_length] at hget
  have hused := queue_eq_nil_iff.mp hq
  refine ⟨n, fifo', hget, ⟨hv, hsize.trans h.size, ?_, ?_⟩, hused⟩
  · rw [hused]
    exact Nat.zero_le _
  · rw [hq, hused, Nat.sub_zero, List.drop_length]

end Kfifo.Holds

namespace Anybus

variable {s s' : Anybus}

/-- What is in the FIFO begins a whole number of telegrams after the restart, and nothing
received since has been lost. -/
def Framed (s : Anybus) (fifo : Kfifo) : Prop :=
  ∀ start, s.since = some start → start ≤ s.received.length ∧
    ∃ k, start + k * s.anybusRecvLen.toNat = s.received.length - fifo.used ∧
      max start s.taken = s.received.length - fifo.used

/-- The invariant. -/
structure Sound (s : Anybus) : Prop where
  holds : ∀ fifo ∈ s.rxFifo, fifo.Holds s.received
  framed : ∀ fifo ∈ s.rxFifo, s.Framed fifo
  restarted : s.anybusUsart = s.since.isSome
  len_pos : 0 < s.anybusRecvLen.toNat
  taken_le : s.taken ≤ s.received.length

/-- A restart that leaves nothing in the FIFO begins the counting of telegrams. -/
theorem framed_of_used_eq_zero {fifo : Kfifo} (hused : fifo.used = 0)
    (hsince : s.since = some s.received.length) (htaken : s.taken ≤ s.received.length) :
    s.Framed fifo := by
  intro start hstart
  obtain rfl := Option.some.inj (hsince.symm.trans hstart)
  rw [hused, Nat.sub_zero]
  exact ⟨le_rfl, 0, by rw [Nat.zero_mul, Nat.add_zero], max_eq_left htaken⟩

theorem Sound.restart (h : s.Sound) {n : UInt16} {result : OpenResult} (hn : 0 < n.toNat)
    (hsafe : AnybusSafe s (.restart n result)) : (s.restart n result).Sound := by
  unfold Anybus.restart usartOpen
  dsimp only
  split
  · rename_i hopen
    refine ⟨h.holds, fun fifo hfifo => ?_, rfl, hn, h.taken_le⟩
    exact framed_of_used_eq_zero (hsafe hopen fifo hfifo) rfl h.taken_le
  · -- the port gets a new FIFO, or none
    have hnew : ∀ fifo ∈ result.rxFifo, ∃ buffer, fifo = kfifoInitStatic buffer maxUsartBuf := by
      intro fifo hfifo
      cases result with
      | noRxFifo => cases hfifo
      | noTxFifo buffer | failed buffer | opened buffer =>
        exact ⟨buffer, (Option.some.inj hfifo).symm⟩
    refine ⟨fun fifo hfifo => ?_, fun fifo hfifo => ?_, rfl, hn, h.taken_le⟩
    · obtain ⟨buffer, rfl⟩ := hnew fifo hfifo
      exact .init buffer _
    · obtain ⟨buffer, rfl⟩ := hnew fifo hfifo
      exact framed_of_used_eq_zero (Kfifo.used_eq_zero_iff.mpr rfl) rfl h.taken_le

theorem Sound.receive (h : s.Sound) {c : UInt8} (hsafe : AnybusSafe s (.receive c))
    (heq : s.receive c = some s') : s'.Sound := by
  unfold Anybus.receive at heq
  split at heq
  · rename_i hopen
    obtain ⟨fifo, hfifo, heq⟩ := Option.bind_eq_some_iff.mp heq
    have hhold := h.holds fifo hfifo
    obtain ⟨fifo', hput, hhold', hused⟩ := hhold.putc (hsafe hopen fifo hfifo) c
    rw [hput] at heq
    obtain rfl := Option.some.inj heq
    have htaken := h.taken_le
    refine ⟨fun f hf => ?_, fun f hf => ?_, h.restarted, h.len_pos, ?_⟩
    · obtain rfl := Option.some.inj hf
      exact hhold'
    · obtain rfl := Option.some.inj hf
      intro start hstart
      obtain ⟨hle, k, hk, hmax⟩ := h.framed fifo hfifo start hstart
      refine ⟨?_, k, ?_, ?_⟩
      · exact hle.trans (by simp)
      · simpa [hused, Nat.add_sub_add_right] using hk
      · simpa [hused, Nat.add_sub_add_right] using hmax
    · exact htaken.trans (by simp)
  · obtain rfl := Option.some.inj heq
    exact h

/-- Whole telegrams are taken out. -/
theorem Framed.drained {fifo fifo' : Kfifo} (h : s.Framed fifo)
    (hle : fifo.used ≤ s.received.length) (hdvd : s.anybusRecvLen.toNat ∣ fifo.used)
    (hused : fifo'.used = 0) :
    ({ s with taken := s.received.length - fifo'.used } : Anybus).Framed fifo' := by
  intro start hstart
  obtain ⟨hstart, k, hk, -⟩ := h start hstart
  obtain ⟨j, hj⟩ := hdvd
  rw [hused, Nat.sub_zero]
  refine ⟨hstart, k + j, ?_, max_eq_right hstart⟩
  dsimp only
  rw [Nat.add_mul, ← Nat.add_assoc, hk, Nat.mul_comm j, ← hj, Nat.sub_add_cancel hle]

/-- The buffer handed over starts with the first bytes of the FIFO. -/
theorem startsAt_queue {p : Poll} {fifo : Kfifo} (h : fifo.Holds p.received)
    (hlen : p.len.toNat ≤ fifo.used) (old : ℕ → UInt8) :
    StartsAt p (fun i => fifo.queue.getD i (old i)) (p.received.length - fifo.used) := by
  have hle := h.used_le
  refine ⟨by omega, fun i hi => ?_⟩
  have hin : p.received.length - fifo.used + i < p.received.length := by omega
  simp [h.queue, List.getElem?_drop, List.getElem?_eq_getElem hin]

/-- **The poll** keeps the invariant, and does what is asked. -/
theorem Sound.poll (h : s.Sound) {o : List Poll}
    (hsafe : s.anybusUsart → ∀ fifo ∈ s.rxFifo,
      fifo.used < s.anybusRecvLen.toNat ∨ s.anybusRecvLen.toNat ∣ fifo.used)
    (heq : s.poll = some (s', o)) : s'.Sound ∧ ∀ p ∈ o, p.Right := by
  have hpos := h.len_pos
  cases husart : s.anybusUsart with
  | false =>
    -- there has been no restart, and nothing is asked for
    have hsince : s.since = none := by
      have hr := h.restarted
      rw [husart] at hr
      exact Option.isNone_iff_eq_none.mp (by rw [← Option.not_isSome, ← hr]; rfl)
    have hzero : ¬ s.anybusRecvLen.toUInt32.toInt32 ≤ (0 : UInt32).toInt32 := by
      rw [toInt32_le_toInt32 (by decide)]
      exact Nat.not_le.mpr hpos
    rw [Anybus.poll, getdatasize, husart] at heq
    obtain ⟨rfl, rfl⟩ := Prod.mk.injEq .. ▸ Option.some.inj ((if_neg hzero).symm.trans heq)
    refine ⟨h, fun p hp => ?_⟩
    obtain rfl := List.mem_singleton.mp hp
    refine ⟨fun _ ht => (by cases ht), fun start hstart => ?_⟩
    exact absurd (hsince.symm.trans hstart) nofun
  | true =>
    cases hfifo : s.rxFifo with
    | none =>
      rw [Anybus.poll, getdatasize, husart, hfifo] at heq
      cases heq
    | some fifo =>
      have hhold := h.holds fifo hfifo
      have hframed := h.framed fifo hfifo
      have hcmp := @toInt32_le_toInt32 (kfifoLen fifo) s.anybusRecvLen hhold.small
      rw [Anybus.poll, getdatasize, husart, hfifo] at heq
      by_cases hlen : s.anybusRecvLen.toNat ≤ fifo.used
      · obtain ⟨n, fifo', hget, hhold', hused⟩ := hhold.get
        have heq' := (if_pos (hcmp.mpr hlen)).symm.trans heq
        rw [getpacket, husart, hfifo, UInt32.toUInt32_toInt32] at heq'
        simp only [if_true, Option.bind_eq_bind, Option.bind_some, hget, Option.pure_def,
          Option.some.injEq, Prod.mk.injEq] at heq'
        obtain ⟨rfl, rfl⟩ := heq'
        constructor
        · refine ⟨fun f hf => ?_, fun f hf => ?_, husart ▸ h.restarted, hpos, Nat.sub_le _ _⟩
          · obtain rfl := Option.some.inj hf
            exact hhold'
          · obtain rfl := Option.some.inj hf
            exact hframed.drained hhold.used_le
              ((hsafe husart fifo hfifo).resolve_left (Nat.not_lt.mpr hlen)) hused
        · intro p hp
          obtain rfl := List.mem_singleton.mp hp
          have hstarts := startsAt_queue (p := ⟨s.received, s.since, s.taken, s.anybusRecvLen,
            some fun i => fifo.queue.getD i (s.anybusRecvBuf i)⟩) hhold hlen s.anybusRecvBuf
          obtain ⟨start, hstart⟩ : ∃ start, s.since = some start :=
            Option.isSome_iff_exists.mp (h.restarted.symm.trans husart)
          obtain ⟨-, k, hk, hmax⟩ := hframed start hstart
          refine ⟨fun telegram ht => ?_, fun start' hstart' _ => ⟨_, rfl, ?_⟩⟩
          · obtain rfl := Option.some.inj ht
            refine ⟨start, k, hstart, ?_⟩
            dsimp only
            rw [hk]
            exact hstarts
          · obtain rfl := Option.some.inj (hstart.symm.trans hstart')
            dsimp only
            rw [hmax]
            exact hstarts
      · have heq' := (if_neg fun hle => hlen (hcmp.mp hle)).symm.trans heq
        obtain ⟨rfl, rfl⟩ := Prod.mk.injEq .. ▸ Option.some.inj heq'
        refine ⟨h, fun p hp => ?_⟩
        obtain rfl := List.mem_singleton.mp hp
        refine ⟨fun _ ht => (by cases ht), fun start hstart hunread => ?_⟩
        obtain ⟨-, k, -, hmax⟩ := hframed start hstart
        have hle := hhold.used_le
        exact absurd hunread (by dsimp only; omega)

/-- **Step.**  A safe step keeps the invariant, and its polls do what is asked. -/
theorem Sound.step (h : s.Sound) {op : AnybusOp} {o : List Poll} (hlen : op.Lengthy)
    (hsafe : AnybusSafe s op) (heq : anybusStep s op = some (s', o)) :
    s'.Sound ∧ ∀ p ∈ o, p.Right := by
  cases op with
  | restart n result =>
    obtain ⟨rfl, rfl⟩ := Prod.mk.injEq .. ▸ Option.some.inj heq
    have hn : 0 < n.toNat := Nat.lt_of_lt_of_le (by decide) (UInt16.le_iff_toNat_le.mp hlen.1)
    exact ⟨h.restart hn hsafe, fun _ hp => absurd hp List.not_mem_nil⟩
  | timeout =>
    have hs : ({ s with cnt := s.cnt + 1 } : Anybus).Sound :=
      ⟨h.holds, h.framed, h.restarted, h.len_pos, h.taken_le⟩
    rw [anybusStep, Anybus.timeout] at heq
    split at heq
    · rename_i hcnt
      exact hs.poll (hsafe hcnt) heq
    · obtain ⟨rfl, rfl⟩ := Prod.mk.injEq .. ▸ Option.some.inj heq
      exact ⟨hs, fun _ hp => absurd hp List.not_mem_nil⟩
  | receive c =>
    obtain ⟨s₁, hrec, heq⟩ := Option.map_eq_some_iff.mp heq
    obtain ⟨rfl, rfl⟩ := Prod.mk.injEq .. ▸ heq
    exact ⟨h.receive hsafe hrec, fun _ hp => absurd hp List.not_mem_nil⟩

theorem sound_boot (port : Option (ℕ → UInt8)) : (boot port).Sound := by
  refine ⟨fun fifo hfifo => ?_, fun fifo _ start hstart => ?_, rfl,
    show 0 < (5 : UInt16).toNat by decide, le_rfl⟩
  · obtain ⟨buffer, -, rfl⟩ := Option.map_eq_some_iff.mp hfifo
    exact .init buffer []
  · cases hstart

end Anybus

/-- **Telegrams**, as far as they arrive.  In every run in which the driver asks for
telegrams of its lengths and every step is safe, every buffer handed over starts
with a telegram's length of bytes received after the latest restart, a whole number
of telegrams behind it; and a poll that looks at the FIFO with a telegram's length
unread since the restart hands these bytes over. -/
theorem anybus_telegrams (port : Option (ℕ → UInt8)) {ops : List AnybusOp} {s : Anybus}
    {polls : List Poll} (hlen : ∀ op ∈ ops, op.Lengthy)
    (hsafe : Along anybusStep AnybusSafe (.boot port) ops)
    (hrun : run anybusStep (.boot port) ops = some (s, polls)) : ∀ p ∈ polls, p.Right :=
  (run_along (P := Anybus.Sound) (fun _ _ _ _ h hC heq => h.step hC.1 hC.2 heq)
    (Anybus.sound_boot port) (hsafe.and_inputs hlen) hrun).2

instance : ∀ op, Decidable (AnybusOp.Lengthy op)
  | .restart n _ => inferInstanceAs (Decidable (19 ≤ n ∧ n ≤ 275))
  | .timeout | .receive _ => inferInstanceAs (Decidable True)

instance (s : Anybus) : ∀ op, Decidable (AnybusSafe s op)
  | .restart _ _ => inferInstanceAs (Decidable (_ → ∀ fifo ∈ s.rxFifo, fifo.used = 0))
  | .timeout => inferInstanceAs (Decidable (_ → _ → ∀ fifo ∈ s.rxFifo, _ ∨ _))
  | .receive _ => inferInstanceAs (Decidable (_ → ∀ fifo ∈ s.rxFifo, _ ≠ _))

/-- The port is opened for telegrams of 19 bytes, and `n` bytes 0, 1, … arrive. -/
def anybusBytes (n : ℕ) : List AnybusOp :=
  .restart 19 (.opened fun _ => 0) :: (List.range n).map fun i => .receive (UInt8.ofNat i)

/-- One telegram arrives and is handed over. -/
theorem anybus_telegrams_one : ∃ s p, run anybusStep (.boot none) (anybusBytes 19 ++ [.timeout])
    = some (s, [p]) ∧ p.telegram.isSome ∧ p.Right := by
  have hval : (run anybusStep (.boot none) (anybusBytes 19 ++ [.timeout])).map
      (fun r => r.2.map fun p => p.telegram.isSome) = some [true] := by
    decide +kernel
  obtain ⟨⟨s, polls⟩, hrun, hs⟩ := Option.map_eq_some_iff.mp hval
  obtain ⟨p, rfl, hp⟩ := List.map_eq_singleton_iff.mp hs
  have hright := anybus_telegrams none (by decide) (by decide +kernel) hrun
  exact ⟨s, p, hrun, hp, hright p (List.mem_singleton.mpr rfl)⟩

/-- The first byte of the buffer. -/
def Poll.first (p : Poll) : Option UInt8 := p.telegram.map fun telegram => telegram 0

/-- The first byte of a buffer that is right. -/
theorem Poll.Right.first {p : Poll} (h : p.Right) {b : UInt8} (hb : p.first = some b)
    (hlen : 0 < p.len.toNat) :
    ∃ start k, p.since = some start ∧ start + k * p.len.toNat + p.len.toNat ≤ p.received.length ∧
      p.received[start + k * p.len.toNat]? = some b := by
  obtain ⟨telegram, ht, rfl⟩ := Option.map_eq_some_iff.mp hb
  obtain ⟨start, k, hstart, hle, hbytes⟩ := h.aligned telegram ht
  exact ⟨start, k, hstart, hle, hbytes 0 hlen⟩

/-- One byte arrives, the driver restarts, and a telegram arrives. -/
def anybusStale : List AnybusOp :=
  anybusBytes 0 ++ [.receive 255] ++ anybusBytes 19 ++ [.timeout]

/-- A telegram and the first byte of the next arrive, a poll finds both, and the rest of
the next and the first byte of a third arrive. -/
def anybusSwallowed : List AnybusOp :=
  anybusBytes 20 ++ [.timeout] ++ (List.range 19).map (fun i => .receive (UInt8.ofNat (20 + i))) ++
    List.replicate 5 .timeout

/-- A telegram of 200 bytes is asked for and arrives. -/
def anybusLong : List AnybusOp :=
  .restart 200 (.opened fun _ => 0) :: List.replicate 200 (.receive 0) ++ [.timeout]

theorem anybus_telegrams_wrong :
    (∃ s p, run anybusStep (.boot none) anybusStale = some (s, [p]) ∧ ¬ p.Right) ∧
    (∃ s p q, run anybusStep (.boot none) anybusSwallowed = some (s, [p, q]) ∧ ¬ q.Right) ∧
    (∃ s p, run anybusStep (.boot none) anybusLong = some (s, [p]) ∧ ¬ p.Right) := by
  have hstale : (run anybusStep (.boot none) anybusStale).map (fun r => r.2.map fun p =>
      decide (p.first = some 255 ∧ p.len.toNat = 19 ∧ p.since = some 1 ∧ p.received.length = 20 ∧
        p.received[1]? = some 0)) = some [true] := by
    decide +kernel
  have hswallowed : (run anybusStep (.boot none) anybusSwallowed).map (fun r => r.2.map fun q =>
      decide (q.first = some 20 ∧ q.len.toNat = 19 ∧ q.since = some 0 ∧ q.received.length = 39 ∧
        q.received[0]? = some 0 ∧ q.received[19]? = some 19)) = some [false, true] := by
    decide +kernel
  have hlong : (run anybusStep (.boot none) anybusLong).map (fun r => r.2.map fun p =>
      decide (p.telegram.isSome = false ∧ p.len.toNat = 200 ∧ p.since = some 0 ∧
        p.received.length = 200 ∧ p.taken = 0)) = some [true] := by
    decide +kernel
  refine ⟨?_, ?_, ?_⟩
  · obtain ⟨⟨s, polls⟩, hrun, hs⟩ := Option.map_eq_some_iff.mp hstale
    obtain ⟨p, rfl, hp⟩ := List.map_eq_singleton_iff.mp hs
    obtain ⟨hb, hlen, hsince, hrec, hone⟩ := of_decide_eq_true hp
    refine ⟨s, p, hrun, fun hright => ?_⟩
    obtain ⟨start, k, hstart, hle, hfirst⟩ := hright.first hb (by rw [hlen]; decide)
    obtain rfl := Option.some.inj (hsince.symm.trans hstart)
    rw [hlen, hrec] at hle
    obtain rfl : k = 0 := by omega
    rw [Nat.zero_mul, hone] at hfirst
    exact absurd hfirst (by decide)
  · obtain ⟨⟨s, polls⟩, hrun, hs⟩ := Option.map_eq_some_iff.mp hswallowed
    obtain ⟨p, tail, rfl, -, hs⟩ := List.map_eq_cons_iff.mp hs
    obtain ⟨q, rfl, hq⟩ := List.map_eq_singleton_iff.mp hs
    obtain ⟨hb, hlen, hsince, hrec, hzero, hnext⟩ := of_decide_eq_true hq
    refine ⟨s, p, q, hrun, fun hright => ?_⟩
    obtain ⟨start, k, hstart, hle, hfirst⟩ := hright.first hb (by rw [hlen]; decide)
    obtain rfl := Option.some.inj (hsince.symm.trans hstart)
    rw [hlen, hrec] at hle
    rw [hlen] at hfirst
    obtain rfl | rfl : k = 0 ∨ k = 1 := by omega
    · exact absurd (hzero.symm.trans hfirst) (by decide)
    · exact absurd (hnext.symm.trans hfirst) (by decide)
  · obtain ⟨⟨s, polls⟩, hrun, hs⟩ := Option.map_eq_some_iff.mp hlong
    obtain ⟨p, rfl, hp⟩ := List.map_eq_singleton_iff.mp hs
    obtain ⟨hnone, hlen, hsince, hrec, htaken⟩ := of_decide_eq_true hp
    refine ⟨s, p, hrun, fun hright => ?_⟩
    obtain ⟨telegram, ht, -⟩ := hright.delivered 0 hsince (by rw [hlen, hrec, htaken]; decide)
    rw [ht] at hnone
    cases hnone

end Start01
