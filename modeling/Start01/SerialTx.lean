/-
Start01/SerialTx.lean

The serial transmit path in interrupt mode.  `stm32_uart_sendstring` waits until the
transmit FIFO is empty, puts the string into it, takes the first byte out again,
writes it to the data register and enables the transmit-complete interrupt; the
handler `usart_irq_route` then sends a byte at a time until the FIFO is empty, and
disables the interrupt.

The main loop is cut into its elementary steps, as in `SerialRx`, and the handler is
atomic.  It runs when the interrupt is enabled and the flag `TC` is set; when the
hardware sets the flag is left open.

Both sides take bytes from the FIFO and write the data register.  `TxSafe` says when
they do not disturb each other, and that the string fits the FIFO; in a run of such
steps the data register gets the strings in order (`serial_tx_in_order`).
-/
import Start01.SerialRx

namespace Start01

open Scatter Ring Run

/-! ### The elementary steps -/

/-- Where `stm32_uart_sendstring` is, with its arguments and local variables; `idle` is
outside. -/
inductive TxPc
  | idle
  | waitIn
  | waitOut (inn : UInt32)
  | putIn
  | putOut (inn : UInt32)
  | putPlace (n : UInt32)
  | putTo (n l : UInt32)
  | putCopy (n l pos : UInt32) (k : ℕ)
  | getcIn
  | getcOut (inn : UInt32)
  | getcPlace
  | getcByte (pos : UInt32)
  | getcUpdate (c : UInt8)
  | writeDr (c : UInt8)
  | enableTc
  | ret
deriving DecidableEq

/-- The sending side of a port, in the middle of a call or not. -/
structure SerialTx where
  txFifo : Kfifo
  pc : TxPc
  /-- The arguments of the call. -/
  data : ℕ → UInt8
  len : UInt32
  /-- The interrupt is enabled, and its flag is set. -/
  tcie : Bool
  tc : Bool
  /-- Ghost: the bytes written to the data register. -/
  dr : List UInt8
  /-- Ghost: the strings of the calls, and what these returned. -/
  calls : List ((ℕ → UInt8) × UInt32)

namespace SerialTx

/-- `stm32_uart_sendstring` is called; `none` is the NULL pointer. -/
def sendstring (s : SerialTx) (data : Option (ℕ → UInt8)) (len : UInt32) : Option SerialTx :=
  match s.pc with
  | .idle =>
    match data with
    | none => some { s with calls := s.calls ++ [(fun _ => 0, 0)] }
    | some data =>
      if len = 0 then some { s with calls := s.calls ++ [(data, 0)] }
      else some { s with pc := .waitIn, data := data, len := len }
  | _ => none

/-- The next elementary step of the call; `none` outside a call, and for an access
outside the buffer. -/
def main (s : SerialTx) : Option SerialTx :=
  let fifo := s.txFifo
  match s.pc with
  | .idle => none
  -- `while(kfifo_len(dev->tx_fifo) > 0)`
  | .waitIn => some { s with pc := .waitOut fifo.inn }
  | .waitOut inn => some { s with pc := if inn - fifo.out > 0 then .waitIn else .putIn }
  -- `len = min(len, fifo->size - fifo->in + fifo->out)`
  | .putIn => some { s with pc := .putOut fifo.inn }
  | .putOut inn => some { s with pc := .putPlace (minU32 s.len (fifo.size - inn + fifo.out)) }
  -- `l = min(len, fifo->size - (fifo->in & (fifo->size - 1)))`
  | .putPlace n => some { s with pc := .putTo n (minU32 n (fifo.size - fifo.mask fifo.inn)) }
  -- the target of the first `memcpy`
  | .putTo n l => some { s with pc := .putCopy n l (fifo.mask fifo.inn) 0 }
  | .putCopy n l pos k =>
      if k < n.toNat then
        let i := if k < l.toNat then pos.toNat + k else k - l.toNat
        if i < fifo.size.toNat then
          some { s with
            txFifo := { fifo with buffer := Function.update fifo.buffer i (s.data k) }
            pc := .putCopy n l pos (k + 1) }
        else none
      else
        -- `fifo->in += len`
        some { s with txFifo := { fifo with inn := fifo.inn + n }, pc := .getcIn }
  -- `if (fifo->in == fifo->out) return -1`
  | .getcIn => some { s with pc := .getcOut fifo.inn }
  | .getcOut inn => some { s with pc := if inn = fifo.out then .ret else .getcPlace }
  | .getcPlace => some { s with pc := .getcByte (fifo.mask fifo.out) }
  | .getcByte pos =>
      if pos.toNat < fifo.size.toNat then
        some { s with pc := .getcUpdate (fifo.buffer pos.toNat) }
      else none
  -- `fifo->out++`
  | .getcUpdate c =>
      some { s with txFifo := { fifo with out := fifo.out + 1 }, pc := .writeDr c }
  | .writeDr c => some { s with pc := .enableTc, dr := s.dr ++ [c] }
  | .enableTc => some { s with pc := .ret, tcie := true }
  | .ret => some { s with pc := .idle, calls := s.calls ++ [(s.data, s.len)] }

/-- `usart_irq_route`, for a byte sent. -/
def irq (s : SerialTx) : Option SerialTx :=
  if s.tcie ∧ s.tc then
    match kfifoGetc s.txFifo with
    | none => none
    | some (none, fifo) => some { s with txFifo := fifo, tc := false, tcie := false }
    | some (some ch, fifo) => some { s with txFifo := fifo, tc := false, dr := s.dr ++ [ch] }
  else none

end SerialTx

/-- A call begins, the program goes on, or the hardware is done with a byte. -/
inductive TxOp
  | sendstring (data : Option (ℕ → UInt8)) (len : UInt32)
  | main
  /-- The hardware sets `TC`. -/
  | complete
  | irq

/-- One step of the program or of the hardware. -/
def txStep (s : SerialTx) : TxOp → Option SerialTx
  | .sendstring data len => s.sendstring data len
  | .main => s.main
  | .complete => some { s with tc := true }
  | .irq => s.irq

/-- The port just opened: `usart_fifo_init` has allocated the FIFO, and
`stm32_open_uart_interrput` has cleared `TC` and disabled its interrupt. -/
def SerialTx.opened (buffer : ℕ → UInt8) : SerialTx where
  txFifo := kfifoInitStatic buffer maxUsartBuf
  pc := .idle
  data := fun _ => 0
  len := 0
  tcie := false
  tc := false
  dr := []
  calls := []

/-! ### What is asked -/

/-- The first `n` bytes of a string. -/
def firstBytes (data : ℕ → UInt8) (n : UInt32) : List UInt8 := (List.range n.toNat).map data

/-- The bytes the calls say they have taken. -/
def SerialTx.promised (s : SerialTx) : List UInt8 := s.calls.flatMap fun c => firstBytes c.1 c.2

/-- Outside a call and with the FIFO drained, the data register has had just these. -/
def SerialTx.InOrder (s : SerialTx) : Prop :=
  s.pc = .idle → s.txFifo.used = 0 → s.dr = s.promised

/-- The string fits the FIFO, and the interrupt does not come while the main loop has a
byte of the FIFO in its hands. -/
def TxSafe (s : SerialTx) : TxOp → Prop
  | .sendstring data len => data.isSome → len ≤ maxUsartBuf
  | .irq =>
    match s.pc with
    | .getcPlace => s.txFifo.used ≠ 1
    | .getcByte _ | .getcUpdate _ => False
    | .writeDr _ => s.txFifo.used = 0
    | _ => True
  | _ => True

instance (s : SerialTx) : ∀ op, Decidable (TxSafe s op)
  | .sendstring data len => inferInstanceAs (Decidable (data.isSome → len ≤ maxUsartBuf))
  | .main | .complete => inferInstanceAs (Decidable True)
  | .irq => by
    unfold TxSafe
    cases s.pc <;> infer_instance

/-! ### The invariant -/

namespace SerialTx

variable {s s' : SerialTx}

/-- The byte taken from the FIFO and not yet written. -/
def inHand (s : SerialTx) : List UInt8 :=
  match s.pc with
  | .writeDr c => [c]
  | _ => []

/-- The string of the call, once it is in the FIFO. -/
def current (s : SerialTx) : List UInt8 :=
  match s.pc with
  | .getcIn | .getcOut _ | .getcPlace | .getcByte _ | .getcUpdate _ | .writeDr _ | .enableTc
  | .ret => firstBytes s.data s.len
  | _ => []

/-- What the local variables of the call say about the FIFO. -/
def Locals (s : SerialTx) : Prop :=
  let fifo := s.txFifo
  match s.pc with
  | .waitOut inn | .getcOut inn => inn = fifo.inn
  | .putIn => fifo.used = 0
  | .putOut inn => fifo.used = 0 ∧ inn = fifo.inn
  | .putPlace n => fifo.used = 0 ∧ n = s.len
  | .putTo n l => fifo.used = 0 ∧ n = s.len ∧ l = minU32 n (fifo.size - fifo.mask fifo.inn)
  | .putCopy n l pos k =>
      fifo.used = 0 ∧ n = s.len ∧ l = minU32 n (fifo.size - fifo.mask fifo.inn) ∧
        pos = fifo.mask fifo.inn ∧ k ≤ n.toNat ∧
        window fifo.size.toNat fifo.buffer fifo.inn.toNat k = (List.range k).map s.data
  | .getcPlace => 0 < fifo.used
  | .getcByte pos => pos = fifo.mask fifo.out ∧ 0 < fifo.used
  | .getcUpdate c => fifo.queue.head? = some c
  | _ => True

/-- The invariant: what is written, in hand and queued is what was promised and what
the call has queued. -/
structure Sound (s : SerialTx) : Prop where
  valid : s.txFifo.Valid
  size : s.txFifo.size = maxUsartBuf
  len_le : s.len ≤ maxUsartBuf
  balance : s.dr ++ s.inHand ++ s.txFifo.queue = s.promised ++ s.current
  locals : s.Locals

theorem promised_append (calls : List ((ℕ → UInt8) × UInt32)) (data : ℕ → UInt8) (n : UInt32) :
    (calls ++ [(data, n)]).flatMap (fun c => firstBytes c.1 c.2)
      = calls.flatMap (fun c => firstBytes c.1 c.2) ++ firstBytes data n := by
  rw [List.flatMap_append, List.flatMap_singleton]

/-! ### A call begins -/

theorem Sound.sendstring (h : s.Sound) {data : Option (ℕ → UInt8)} {len : UInt32}
    (hsafe : TxSafe s (.sendstring data len)) (heq : s.sendstring data len = some s') :
    s'.Sound := by
  obtain ⟨hv, hsize, hlen, hbal, hloc⟩ := h
  obtain ⟨fifo, pc, data₀, len₀, tcie, tc, dr, calls⟩ := s
  cases pc with
  | idle =>
    -- an empty string adds nothing to what was promised
    have hzero : ∀ data : ℕ → UInt8,
        Sound ⟨fifo, .idle, data₀, len₀, tcie, tc, dr, calls ++ [(data, 0)]⟩ := by
      refine fun data => ⟨hv, hsize, hlen, ?_, hloc⟩
      rw [promised, promised_append]
      exact hbal.trans (congrArg (· ++ []) (List.append_nil _).symm)
    cases data with
    | none =>
      obtain rfl := Option.some.inj heq
      exact hzero fun _ => 0
    | some data =>
      dsimp only [SerialTx.sendstring] at heq
      split at heq
      · obtain rfl := Option.some.inj heq
        exact hzero data
      · obtain rfl := Option.some.inj heq
        exact ⟨hv, hsize, hsafe rfl, hbal, trivial⟩
  | _ => cases heq

/-! ### The steps of the main loop -/

/-- The call goes on, with nothing put or taken. -/
theorem Sound.goto (h : s.Sound) {pc : TxPc}
    (hhand : ({ s with pc := pc } : SerialTx).inHand = s.inHand)
    (hcur : ({ s with pc := pc } : SerialTx).current = s.current)
    (hloc : ({ s with pc := pc } : SerialTx).Locals) : ({ s with pc := pc } : SerialTx).Sound := by
  refine ⟨h.valid, h.size, h.len_le, ?_, hloc⟩
  rw [hhand, hcur]
  exact h.balance

/-- One byte of the string is written into the ring. -/
theorem window_copy {fifo : Kfifo} (hv : fifo.Valid) {data : ℕ → UInt8} {n l : UInt32} {k : ℕ}
    (hn : n.toNat ≤ fifo.size.toNat) (hl : l = minU32 n (fifo.size - fifo.mask fifo.inn))
    (hk : k < n.toNat)
    (hwin : window fifo.size.toNat fifo.buffer fifo.inn.toNat k = (List.range k).map data) :
    ∃ i, (if k < l.toNat then (fifo.mask fifo.inn).toNat + k else k - l.toNat) = i ∧
      i < fifo.size.toNat ∧
      window fifo.size.toNat (Function.update fifo.buffer i (data k)) fifo.inn.toNat (k + 1)
        = (List.range (k + 1)).map data := by
  have hlv := hv.piece_toNat n fifo.inn
  rw [← hl] at hlv
  have hcell := cell_of_piece hlv hk hn hv.size_pos
  refine ⟨cell fifo.size.toNat fifo.inn.toNat k, ?_, Nat.mod_lt _ hv.size_pos, ?_⟩
  · rw [hv.mask_toNat]
    exact hcell
  · have hpush := @window_push UInt8 fifo.size.toNat fifo.buffer fifo.inn.toNat k
      (hk.trans_le hn) (data k)
    rw [cell, hpush, hwin, List.range_succ, List.map_append]
    rfl

section Put

variable {fifo : Kfifo} {data : ℕ → UInt8} {n l pos len : UInt32} {k : ℕ} {tcie tc : Bool}
  {dr : List UInt8} {calls : List ((ℕ → UInt8) × UInt32)}

/-- A byte of the string is copied into the empty FIFO. -/
theorem Sound.put_byte
    (h : Sound ⟨fifo, .putCopy n l pos k, data, len, tcie, tc, dr, calls⟩) (hlt : k < n.toNat) :
    ∃ s', SerialTx.main ⟨fifo, .putCopy n l pos k, data, len, tcie, tc, dr, calls⟩ = some s' ∧
      s'.Sound := by
  obtain ⟨hv, hsize, hlen, hbal, hzero, hn, hl, hpos, hk, hwin⟩ := h
  have hfit : n.toNat ≤ fifo.size.toNat := by
    rw [show n = len from hn, show fifo.size = maxUsartBuf from hsize]
    exact hlen
  obtain ⟨i, hi, hin, hwin'⟩ := window_copy hv hfit hl hlt hwin
  refine ⟨⟨{ fifo with buffer := Function.update fifo.buffer i (data k) },
    .putCopy n l pos (k + 1), data, len, tcie, tc, dr, calls⟩, ?_,
    ⟨hv.pow, hv.used_le⟩, hsize, hlen, ?_, hzero, hn, hl, hpos, hlt, hwin'⟩
  · simp only [SerialTx.main]
    rw [if_pos hlt, show pos = fifo.mask fifo.inn from hpos, hi, if_pos hin]
  · -- nothing is queued, before and after
    have hold := Kfifo.queue_eq_nil_iff.mpr hzero
    have hnew : ({ fifo with buffer := Function.update fifo.buffer i (data k) } : Kfifo).queue = [] :=
      Kfifo.queue_eq_nil_iff.mpr hzero
    rw [hold] at hbal
    rw [hnew]
    exact hbal

/-- The string is copied, and becomes the queue. -/
theorem Sound.put_done
    (h : Sound ⟨fifo, .putCopy n l pos k, data, len, tcie, tc, dr, calls⟩) (hlt : ¬ k < n.toNat) :
    ∃ s', SerialTx.main ⟨fifo, .putCopy n l pos k, data, len, tcie, tc, dr, calls⟩ = some s' ∧
      s'.Sound := by
  obtain ⟨hv, hsize, hlen, hbal, hzero, hn, hl, hpos, hk, hwin⟩ := h
  obtain rfl : k = n.toNat := le_antisymm hk (not_lt.mp hlt)
  obtain rfl : n = len := hn
  have hfit : n.toNat ≤ fifo.size.toNat := by
    rw [show fifo.size = maxUsartBuf from hsize]
    exact hlen
  have hzero' : fifo.used = 0 := hzero
  have hadv := @Kfifo.used_advance_inn fifo n
    (by rw [hzero', Nat.zero_add]; exact n.toNat_lt) fifo.buffer
  rw [hzero', Nat.zero_add] at hadv
  have hq : ({ fifo with inn := fifo.inn + n } : Kfifo).queue = firstBytes data n := by
    have hplace := hv.window_inn 0
    rw [hzero', Nat.add_zero, Nat.add_zero] at hplace
    rw [Kfifo.queue, hadv, firstBytes, ← hwin]
    exact window_congr_start hplace.symm _
  refine ⟨_, if_neg hlt, ⟨hv.pow, hadv.trans_le hfit⟩, hsize, hlen, ?_, trivial⟩
  rw [Kfifo.queue_eq_nil_iff.mpr hzero] at hbal
  rw [hq]
  refine congrArg (· ++ firstBytes data n) ?_
  exact (List.append_nil _).symm.trans (hbal.trans (List.append_nil _))

end Put

/-- **A step of the main loop** is taken, and keeps the invariant. -/
theorem Sound.main (h : s.Sound) (hpc : s.pc ≠ .idle) : ∃ s', s.main = some s' ∧ s'.Sound := by
  obtain ⟨hv, hsize, hlen, hbal, hloc⟩ := id h
  obtain ⟨fifo, pc, data, len, tcie, tc, dr, calls⟩ := s
  cases pc with
  | idle => exact absurd rfl hpc
  | waitIn => exact ⟨_, rfl, h.goto rfl rfl rfl⟩
  | waitOut inn =>
    refine ⟨_, rfl, ?_⟩
    by_cases hpos : inn - fifo.out > 0
    · rw [if_pos hpos]
      exact h.goto rfl rfl trivial
    · rw [if_neg hpos]
      refine h.goto rfl rfl ?_
      obtain rfl : inn = fifo.inn := hloc
      rw [gt_iff_lt, UInt32.lt_iff_toNat_lt, UInt32.toNat_zero] at hpos
      exact Nat.eq_zero_of_not_pos hpos
  | putIn => exact ⟨_, rfl, h.goto rfl rfl ⟨hloc, rfl⟩⟩
  | putOut inn =>
    obtain ⟨hzero, hinn⟩ := hloc
    obtain rfl : inn = fifo.inn := hinn
    refine ⟨_, rfl, h.goto rfl rfl ⟨hzero, ?_⟩⟩
    -- the whole string fits
    have hfree := hv.free_toNat
    have hzero' : fifo.used = 0 := hzero
    have hsize' : fifo.size = maxUsartBuf := hsize
    rw [hzero', Nat.sub_zero] at hfree
    rw [← UInt32.toNat_inj, minU32_toNat, hfree]
    refine min_eq_left ?_
    rw [hsize']
    exact hlen
  | putPlace n => exact ⟨_, rfl, h.goto rfl rfl ⟨hloc.1, hloc.2, rfl⟩⟩
  | putTo n l =>
    exact ⟨_, rfl, h.goto rfl rfl ⟨hloc.1, hloc.2.1, hloc.2.2, rfl, Nat.zero_le _, rfl⟩⟩
  | putCopy n l pos k =>
    by_cases hlt : k < n.toNat
    · exact h.put_byte hlt
    · exact h.put_done hlt
  | getcIn => exact ⟨_, rfl, h.goto rfl rfl rfl⟩
  | getcOut inn =>
    refine ⟨_, rfl, ?_⟩
    by_cases hinn : inn = fifo.out
    · rw [if_pos hinn]
      exact h.goto rfl rfl trivial
    · rw [if_neg hinn]
      refine h.goto rfl rfl (Nat.pos_of_ne_zero fun hzero => hinn ?_)
      exact hloc.trans (Kfifo.used_eq_zero_iff.mp hzero)
  | getcPlace => exact ⟨_, rfl, h.goto rfl rfl ⟨rfl, hloc⟩⟩
  | getcByte pos =>
    obtain ⟨hpos, hone⟩ := hloc
    have hin : pos.toNat < fifo.size.toNat := by
      rw [hpos]
      exact hv.mask_add_one_le _
    refine ⟨_, if_pos hin, h.goto rfl rfl ?_⟩
    show fifo.queue.head? = some (fifo.buffer pos.toNat)
    rw [Kfifo.queue_eq_cons hone, hpos, hv.mask_toNat]
    rfl
  | getcUpdate c =>
    obtain ⟨tail, hq⟩ := List.head?_eq_some_iff.mp hloc
    have hq' : fifo.queue = c :: tail := hq
    have hone : 1 ≤ fifo.used := (Nat.le_add_left 1 _).trans_eq (Kfifo.used_of_cons hq').symm
    obtain ⟨hv', hdrop⟩ := @Kfifo.Valid.advance_out fifo hv 1 hone
    refine ⟨_, rfl, hv', hsize, hlen, ?_, trivial⟩
    rw [hdrop, hq']
    rw [hq] at hbal
    exact (List.append_assoc dr [c] tail).trans ((congrArg (· ++ _) (List.append_nil dr)).symm.trans hbal)
  | writeDr c =>
    refine ⟨_, rfl, hv, hsize, hlen, ?_, trivial⟩
    exact (congrArg (· ++ _) (List.append_nil _)).trans hbal
  | enableTc => exact ⟨_, rfl, hv, hsize, hlen, hbal, trivial⟩
  | ret =>
    refine ⟨_, rfl, hv, hsize, hlen, ?_, trivial⟩
    rw [promised, promised_append]
    exact hbal.trans (List.append_nil _).symm

/-- The copying, when nothing comes between. -/
theorem exec_copy {n l : UInt32} (j : ℕ) : ∀ {s : SerialTx} {k : ℕ}, s.txFifo.Valid →
    n.toNat ≤ s.txFifo.size.toNat →
    l = minU32 n (s.txFifo.size - s.txFifo.mask s.txFifo.inn) → k + j = n.toNat →
    s.pc = .putCopy n l (s.txFifo.mask s.txFifo.inn) k →
    exec txStep s (List.replicate j .main) = some { s with
      txFifo := { s.txFifo with
        buffer := scatter s.txFifo.buffer
          (fun i => cell s.txFifo.size.toNat s.txFifo.inn.toNat (k + i)) (fun i => s.data (k + i)) j }
      pc := .putCopy n l (s.txFifo.mask s.txFifo.inn) n.toNat } := by
  induction j with
  | zero =>
    intro s k _ _ _ hk hpc
    rw [Nat.add_zero] at hk
    rw [← hk, ← hpc]
    rfl
  | succ j ih =>
    intro s k hv hn hl hk hpc
    have hlt : k < n.toNat := by omega
    have hlv := hv.piece_toNat n s.txFifo.inn
    rw [← hl] at hlv
    have hcell := cell_of_piece hlv hlt hn hv.size_pos
    have hin : cell s.txFifo.size.toNat s.txFifo.inn.toNat k < s.txFifo.size.toNat :=
      Nat.mod_lt _ hv.size_pos
    have hmain : s.main = some { s with
        txFifo := { s.txFifo with
          buffer := Function.update s.txFifo.buffer
            (cell s.txFifo.size.toNat s.txFifo.inn.toNat k) (s.data k) }
        pc := .putCopy n l (s.txFifo.mask s.txFifo.inn) (k + 1) } := by
      simp only [main, hpc]
      rw [if_pos hlt, hv.mask_toNat, hcell, if_pos hin]
    have hrest := @ih { s with
        txFifo := { s.txFifo with
          buffer := Function.update s.txFifo.buffer
            (cell s.txFifo.size.toNat s.txFifo.inn.toNat k) (s.data k) }
        pc := .putCopy n l (s.txFifo.mask s.txFifo.inn) (k + 1) } (k + 1) ⟨hv.pow, hv.used_le⟩ hn hl
      (by omega) rfl
    rw [List.replicate_succ, exec, txStep, hmain, Option.bind_some, hrest, Nat.add_comm j 1,
      scatter_add]
    simp only [Nat.add_assoc]
    rfl

/-- **The elementary steps are those of `kfifo_put`**: with nothing between them they
leave the FIFO as `kfifoPut` does. -/
theorem exec_put (hv : s.txFifo.Valid) (hpc : s.pc = .putIn) {n : UInt32} {fifo' : Kfifo}
    (hput : kfifoPut s.txFifo s.data s.len = some (n, fifo')) :
    exec txStep s (List.replicate (n.toNat + 5) .main)
      = some { s with txFifo := fifo', pc := .getcIn } := by
  rw [hv.kfifoPut_eq s.data rfl, Option.some.injEq, Prod.mk.injEq] at hput
  obtain ⟨hn, rfl⟩ := hput
  rw [hn]
  obtain ⟨l, hl⟩ : ∃ l, l = minU32 n (s.txFifo.size - s.txFifo.mask s.txFifo.inn) := ⟨_, rfl⟩
  have hle : n.toNat ≤ s.txFifo.size.toNat := by
    rw [← hn, minU32_toNat, hv.free_toNat]
    omega
  -- the counters are read
  have hread : exec txStep s [.main, .main, .main, .main]
      = some { s with pc := .putCopy n l (s.txFifo.mask s.txFifo.inn) 0 } := by
    rw [exec, txStep, main, hpc, hl, ← hn]
    rfl
  have hcopy := exec_copy (s := { s with pc := .putCopy n l (s.txFifo.mask s.txFifo.inn) 0 })
    n.toNat hv hle hl (Nat.zero_add _) rfl
  simp only [Nat.zero_add] at hcopy
  have hops : List.replicate (n.toNat + 5) TxOp.main
      = [TxOp.main, TxOp.main, TxOp.main, TxOp.main] ++
        (List.replicate n.toNat TxOp.main ++ [TxOp.main]) := by
    rw [← List.replicate_succ']
    rfl
  rw [hops, exec_append hread, exec_append hcopy, exec, txStep, main]
  simp only [lt_irrefl, if_false]
  rfl

/-! ### The interrupt -/

/-- The handler moves the first byte of the queue behind the bytes written. -/
theorem Sound.irq_send (h : s.Sound) (hsafe : TxSafe s .irq) {c : UInt8} {tail : List UInt8}
    (hq : s.txFifo.queue = c :: tail) :
    ({ s with
      txFifo := { s.txFifo with out := s.txFifo.out + 1 }
      tc := false
      dr := s.dr ++ [c] } : SerialTx).Sound := by
  obtain ⟨hv, hsize, hlen, hbal, hloc⟩ := h
  have hused := Kfifo.used_of_cons hq
  have hone : (1 : UInt32).toNat ≤ s.txFifo.used := by
    rw [hused]
    exact Nat.le_add_left 1 _
  obtain ⟨hv', hdrop⟩ := hv.advance_out hone
  have hadv := Kfifo.used_advance_out hone s.txFifo.buffer
  have hne : s.txFifo.used ≠ 0 := by
    rw [hused]
    exact Nat.succ_ne_zero _
  -- no byte is in the hands of the main loop
  have hhand : s.inHand = [] := by
    unfold inHand
    split
    · rename_i hpc
      unfold TxSafe at hsafe
      rw [hpc] at hsafe
      exact absurd hsafe hne
    · rfl
  refine ⟨hv', hsize, hlen, ?_, ?_⟩
  · rw [hdrop, hq]
    rw [hhand, hq, List.append_nil] at hbal
    show s.dr ++ [c] ++ s.inHand ++ tail = _
    rw [hhand, List.append_nil, List.append_assoc]
    exact hbal
  · obtain ⟨fifo, pc, data, len, tcie, tc, dr, calls⟩ := s
    cases pc with
    | putIn | putOut | putPlace | putTo | putCopy =>
      first
        | exact absurd hloc hne
        | exact absurd hloc.1 hne
    | getcPlace =>
      have hone' : fifo.used ≠ 1 := hsafe
      have hpos : 0 < fifo.used := hloc
      show 0 < Kfifo.used _
      rw [hadv, UInt32.toNat_one]
      dsimp only
      omega
    | getcByte | getcUpdate => exact hsafe.elim
    | waitOut inn => exact hloc
    | getcOut inn => exact hloc
    | _ => trivial

theorem Sound.irq (h : s.Sound) (hsafe : TxSafe s .irq) (heq : s.irq = some s') : s'.Sound := by
  rw [SerialTx.irq, Option.ite_none_right_eq_some] at heq
  obtain ⟨-, heq⟩ := heq
  cases hq : s.txFifo.queue with
  | nil =>
    rw [Kfifo.getc_of_nil hq] at heq
    obtain rfl := Option.some.inj heq
    exact ⟨h.valid, h.size, h.len_le, h.balance, h.locals⟩
  | cons c tail =>
    rw [h.valid.getc_of_cons hq] at heq
    obtain rfl := Option.some.inj heq
    exact h.irq_send hsafe hq

/-- **Step.**  A safe step keeps the invariant. -/
theorem Sound.step (h : s.Sound) {op : TxOp} (hsafe : TxSafe s op) (heq : txStep s op = some s') :
    s'.Sound := by
  cases op with
  | sendstring data len => exact h.sendstring hsafe heq
  | main =>
    have hpc : s.pc ≠ .idle := by
      intro hidle
      rw [txStep, SerialTx.main, hidle] at heq
      cases heq
    obtain ⟨s₁, hmain, hs₁⟩ := h.main hpc
    obtain rfl := Option.some.inj (heq.symm.trans hmain)
    exact hs₁
  | complete =>
    obtain rfl := Option.some.inj heq
    exact ⟨h.valid, h.size, h.len_le, h.balance, h.locals⟩
  | irq => exact h.irq hsafe heq

theorem sound_opened (buffer : ℕ → UInt8) : (opened buffer).Sound := by
  obtain ⟨hv, hq⟩ := @kfifoInitStatic_valid buffer maxUsartBuf ⟨7, by omega, rfl⟩
  exact ⟨hv, rfl, show (0 : UInt32) ≤ maxUsartBuf by decide, hq, trivial⟩

theorem Sound.inOrder (h : s.Sound) : s.InOrder := by
  intro hpc hused
  have hbal := h.balance
  have hhand : s.inHand = [] := by
    unfold inHand
    rw [hpc]
  have hcur : s.current = [] := by
    unfold current
    rw [hpc]
  rwa [hhand, hcur, Kfifo.queue_eq_nil_iff.mpr hused, List.append_nil, List.append_nil,
    List.append_nil] at hbal

end SerialTx

/-- **The serial transmit path**, as far as it works.  In every run on an open port whose
strings fit the FIFO and whose interrupts are safe, the data register gets the first
`rᵢ` bytes of each string, in order, where `rᵢ` is what the call returned; and a call
that has begun can go on. -/
theorem serial_tx_in_order (buffer : ℕ → UInt8) {ops : List TxOp} {s : SerialTx}
    (hsafe : Meets txStep TxSafe (.opened buffer) ops)
    (hrun : exec txStep (.opened buffer) ops = some s) :
    s.InOrder ∧ (s.pc ≠ .idle → s.main ≠ none) := by
  have hs : s.Sound := exec_invariant (P := SerialTx.Sound)
    (fun _ _ _ h hC heq => h.step hC heq) (SerialTx.sound_opened buffer) hsafe hrun
  refine ⟨hs.inOrder, fun hpc hnone => ?_⟩
  obtain ⟨s', hmain, -⟩ := hs.main hpc
  rw [hnone] at hmain
  cases hmain

/-- The bytes of a string literal, followed by zeros. -/
def bytes (bs : List UInt8) (i : ℕ) : UInt8 := bs.getD i 0

/-- Two bytes are sent; the interrupt comes behind the call. -/
def txTwo : List TxOp :=
  [.sendstring (some (bytes [97, 98])) 2] ++ List.replicate 17 .main ++
    [.complete, .irq, .complete, .irq]

theorem serial_tx_in_order_two : ∃ s, exec txStep (.opened fun _ => 0) txTwo = some s ∧
    s.dr = [97, 98] ∧ s.InOrder := by
  have hdr : (exec txStep (.opened fun _ => 0) txTwo).map SerialTx.dr = some [97, 98] := by
    decide +kernel
  obtain ⟨s, hrun, hs⟩ := Option.map_eq_some_iff.mp hdr
  exact ⟨s, hrun, hs, (serial_tx_in_order (fun _ => 0) (by decide +kernel) hrun).1⟩

/-- A string of one byte is sent, and one of two bytes behind it; the interrupt for the
first byte comes between the taking and the writing of the second. -/
def txSwap : List TxOp :=
  [.sendstring (some (bytes [97])) 1] ++ List.replicate 16 .main ++
    [.sendstring (some (bytes [98, 99])) 2] ++ List.replicate 14 .main ++
    [.complete, .irq, .main, .main, .main, .complete, .irq]

/-- A string of 129 bytes is sent, and 127 interrupts come. -/
def txLong : List TxOp :=
  [.sendstring (some fun i => UInt8.ofNat i) 129] ++ List.replicate 143 .main ++
    (List.replicate 127 [.complete, .irq]).flatten

theorem serial_tx_out_of_order :
    (∃ s, exec txStep (.opened fun _ => 0) txSwap = some s ∧ s.dr = [97, 99, 98] ∧ ¬ s.InOrder) ∧
    (∃ s, exec txStep (.opened fun _ => 0) txLong = some s ∧ s.dr.length = 128 ∧
      ¬ s.InOrder) := by
  have hswap : (exec txStep (.opened fun _ => 0) txSwap).map
      (fun s => (s.dr, s.pc, s.txFifo.used, s.promised)) = some ([97, 99, 98], .idle, 0, [97, 98, 99]) := by
    decide +kernel
  have hlong : (exec txStep (.opened fun _ => 0) txLong).map
      (fun s => (s.dr.length, s.pc, s.txFifo.used, s.promised.length)) = some (128, .idle, 0, 129) := by
    decide +kernel
  constructor
  · obtain ⟨s, hrun, hs⟩ := Option.map_eq_some_iff.mp hswap
    simp only [Prod.mk.injEq] at hs
    obtain ⟨hdr, hpc, hused, hprom⟩ := hs
    refine ⟨s, hrun, hdr, fun hord => ?_⟩
    have heq := hord hpc hused
    rw [hdr, hprom] at heq
    exact absurd heq (by decide)
  · obtain ⟨s, hrun, hs⟩ := Option.map_eq_some_iff.mp hlong
    simp only [Prod.mk.injEq] at hs
    obtain ⟨hdr, hpc, hused, hprom⟩ := hs
    refine ⟨s, hrun, hdr, fun hord => ?_⟩
    have heq := congrArg List.length (hord hpc hused)
    rw [hdr, hprom] at heq
    exact absurd heq (by decide)

end Start01
