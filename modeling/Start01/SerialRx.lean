/-
Start01/SerialRx.lean

The serial receive path: `usart_irq_route` puts each byte received into the receive
FIFO with `kfifo_putc`, and the main loop takes bytes out with `kfifo_get` and
`kfifo_getc`.

The main loop is cut into its elementary steps: each reading of a counter, each byte
copied, the update of `out`.  Between any two of them the interrupt handler may run;
it is atomic.  `stm32_uart_getstring` waits by reading `kfifo_len` and changes
nothing before it calls `kfifo_get`, so a call may begin at any time.

Three ghosts record what delivery is about: the bytes received, the bytes returned,
and the numbers of the bytes that were the oldest unread ones of a full FIFO.

A `kfifo_putc` into a full FIFO moves `out` under the reader.  That is harmless as
long as the reader has not yet fixed what it copies; `RxSafe` says when, and in a run
whose interrupts are all safe nothing is lost, doubled or reordered
(`serial_rx_faithful`).
-/
import Start01.Kfifo

namespace Start01

open Ring Run

/-! ### The elementary steps -/

/-- Where the main loop is in a call, with its local variables; `idle` is outside. -/
inductive RxPc
  | idle
  | getIn (len : UInt32)
  | getOut (len inn : UInt32)
  | getPlace (len : UInt32)
  | getSource (len l : UInt32)
  | getCopy (len l pos : UInt32) (bs : List UInt8)
  | getcIn
  | getcOut (inn : UInt32)
  | getcPlace
  | getcByte (pos : UInt32)
  | getcUpdate (c : UInt8)
deriving DecidableEq

/-- The reception of a port, in the middle of a call or not. -/
structure SerialRx where
  rxFifo : Kfifo
  pc : RxPc
  /-- Ghost: the bytes received. -/
  received : List UInt8
  /-- Ghost: the bytes returned. -/
  returned : List UInt8
  /-- Ghost: the bytes that were the oldest ones in a full FIFO. -/
  exposed : List ℕ

namespace SerialRx

/-- The number of the oldest unread byte. -/
def oldest (s : SerialRx) : ℕ := s.received.length - s.rxFifo.used

/-- Write down the oldest byte of a full FIFO. -/
def note (s : SerialRx) : SerialRx :=
  { s with
    exposed := if s.rxFifo.used = s.rxFifo.size.toNat then s.oldest :: s.exposed else s.exposed }

/-- The next elementary step of the call; `none` outside a call, and for a byte read
outside the buffer. -/
def main (s : SerialRx) : Option SerialRx :=
  let fifo := s.rxFifo
  match s.pc with
  | .idle => none
  -- `len = min(len, fifo->in - fifo->out)`
  | .getIn len => some { s with pc := .getOut len fifo.inn }
  | .getOut len inn => some { s with pc := .getPlace (minU32 len (inn - fifo.out)) }
  -- `l = min(len, fifo->size - (fifo->out & (fifo->size - 1)))`
  | .getPlace len =>
      some { s with pc := .getSource len (minU32 len (fifo.size - fifo.mask fifo.out)) }
  -- the source of the first `memcpy`
  | .getSource len l => some { s with pc := .getCopy len l (fifo.mask fifo.out) [] }
  | .getCopy len l pos bs =>
      if bs.length < len.toNat then
        let i := if bs.length < l.toNat then pos.toNat + bs.length else bs.length - l.toNat
        if i < fifo.size.toNat then
          some { s with pc := .getCopy len l pos (bs ++ [fifo.buffer i]) }
        else none
      else
        -- `fifo->out += len`, and the return
        some { s with
          rxFifo := { fifo with out := fifo.out + len }
          pc := .idle
          returned := s.returned ++ bs }
  -- `if (fifo->in == fifo->out) return -1`
  | .getcIn => some { s with pc := .getcOut fifo.inn }
  | .getcOut inn => some { s with pc := if inn = fifo.out then .idle else .getcPlace }
  | .getcPlace => some { s with pc := .getcByte (fifo.mask fifo.out) }
  | .getcByte pos =>
      if pos.toNat < fifo.size.toNat then
        some { s with pc := .getcUpdate (fifo.buffer pos.toNat) }
      else none
  -- `fifo->out++`, and the return
  | .getcUpdate c =>
      some { s with
        rxFifo := { fifo with out := fifo.out + 1 }
        pc := .idle
        returned := s.returned ++ [c] }

/-- `usart_irq_route`, with a byte received. -/
def irq (s : SerialRx) (c : UInt8) : Option SerialRx :=
  (kfifoPutc s.rxFifo c).map fun fifo =>
    { s with rxFifo := fifo, received := s.received ++ [c] }

end SerialRx

/-- A call begins, the program goes on, or a byte comes in. -/
inductive RxOp
  | get (len : UInt32)
  | getc
  | main
  | irq (c : UInt8)

/-- One step of the program: a call begins, goes on, or is interrupted. -/
def rxStep (s : SerialRx) : RxOp → Option SerialRx
  | .get len => if s.pc = .idle then some { s with pc := .getIn len } else none
  | .getc => if s.pc = .idle then some { s with pc := .getcIn } else none
  | .main => s.main.map SerialRx.note
  | .irq c => (s.irq c).map SerialRx.note

/-- `MAX_USART_BUF`. -/
def maxUsartBuf : UInt32 := 128

/-- The port just opened: `usart_fifo_init` has allocated the FIFO. -/
def SerialRx.opened (buffer : ℕ → UInt8) : SerialRx where
  rxFifo := kfifoInitStatic buffer maxUsartBuf
  pc := .idle
  received := []
  returned := []
  exposed := []

/-! ### What is asked -/

/-- The bytes returned are received bytes, in order and each at most once: those with
the numbers `idx`.  Every byte before number `n` that is not among them was the
oldest one of a full FIFO. -/
structure Accounts (received returned : List UInt8) (exposed : List ℕ) (n : ℕ) (idx : List ℕ) :
    Prop where
  sorted : idx.Pairwise (· < ·)
  lt : ∀ i ∈ idx, i < n
  returned_eq : returned.map some = idx.map fun i => received[i]?
  covered : ∀ i < n, i ∈ idx ∨ i ∈ exposed

/-- What was received before the bytes still in the FIFO is accounted for. -/
def SerialRx.Faithful (s : SerialRx) : Prop :=
  ∃ idx, Accounts s.received s.returned s.exposed s.oldest idx

/-- Here `out` may be moved on by one under the reader: its local variables do not
depend on it. -/
def RxPc.Tolerates (fifo : Kfifo) : RxPc → Prop
  | .getOut len inn => inn ≠ fifo.out ∨ len ≤ fifo.size
  | .getSource len l => l = minU32 len (fifo.size - fifo.mask (fifo.out + 1))
  | .getCopy len _ _ bs => bs.length = len.toNat ∧ len ≤ 1
  | .getcByte _ => False
  | _ => True

/-- The interrupt may come: the FIFO is not full, or the reader tolerates it. -/
def RxSafe (s : SerialRx) : RxOp → Prop
  | .irq _ => s.rxFifo.used = s.rxFifo.size.toNat → s.pc.Tolerates s.rxFifo
  | _ => True

instance (fifo : Kfifo) : ∀ pc, Decidable (RxPc.Tolerates fifo pc)
  | .getOut len inn => inferInstanceAs (Decidable (inn ≠ fifo.out ∨ len ≤ fifo.size))
  | .getSource len l =>
      inferInstanceAs (Decidable (l = minU32 len (fifo.size - fifo.mask (fifo.out + 1))))
  | .getCopy len _ _ bs => inferInstanceAs (Decidable (bs.length = len.toNat ∧ len ≤ 1))
  | .getcByte _ => inferInstanceAs (Decidable False)
  | .idle | .getIn _ | .getPlace _ | .getcIn | .getcOut _ | .getcPlace | .getcUpdate _ =>
      inferInstanceAs (Decidable True)

instance (s : SerialRx) : ∀ op, Decidable (RxSafe s op)
  | .irq _ =>
      inferInstanceAs (Decidable (s.rxFifo.used = s.rxFifo.size.toNat → s.pc.Tolerates s.rxFifo))
  | .get _ | .getc | .main => inferInstanceAs (Decidable True)

/-! ### Keeping the account -/

namespace Accounts

variable {received returned bs : List UInt8} {exposed : List ℕ} {n : ℕ} {idx : List ℕ}

theorem nil (received : List UInt8) (exposed : List ℕ) : Accounts received [] exposed 0 [] where
  sorted := .nil
  lt := fun _ h => absurd h List.not_mem_nil
  returned_eq := rfl
  covered := fun _ h => absurd h (Nat.not_lt_zero _)

/-- Another byte is received. -/
theorem receive (h : Accounts received returned exposed n idx) (hn : n ≤ received.length)
    (c : UInt8) : Accounts (received ++ [c]) returned exposed n idx where
  sorted := h.sorted
  lt := h.lt
  returned_eq := by
    rw [h.returned_eq]
    refine List.map_congr_left fun i hi => ?_
    rw [List.getElem?_append_left ((h.lt i hi).trans_le hn)]
  covered := h.covered

/-- Another byte is written down. -/
theorem expose (h : Accounts received returned exposed n idx) {exposed' : List ℕ}
    (hsub : exposed ⊆ exposed') : Accounts received returned exposed' n idx where
  sorted := h.sorted
  lt := h.lt
  returned_eq := h.returned_eq
  covered := fun i hi => (h.covered i hi).imp_right (@hsub i)

/-- The next byte was the oldest of a full FIFO, and may be missing. -/
theorem skip (h : Accounts received returned exposed n idx) (hn : n ∈ exposed) :
    Accounts received returned exposed (n + 1) idx where
  sorted := h.sorted
  lt := fun i hi => (h.lt i hi).trans (Nat.lt_succ_self n)
  returned_eq := h.returned_eq
  covered := by
    intro i hi
    rcases Nat.lt_succ_iff_lt_or_eq.mp hi with hlt | rfl
    · exact h.covered i hlt
    · exact .inr hn

/-- The next bytes received are returned. -/
theorem append (h : Accounts received returned exposed n idx) {k : ℕ}
    (hk : n + k ≤ received.length) :
    Accounts received (returned ++ (received.drop n).take k) exposed (n + k)
      (idx ++ List.range' n k) where
  sorted := by
    refine List.pairwise_append.mpr ⟨h.sorted, List.pairwise_lt_range', fun i hi j hj => ?_⟩
    rw [List.mem_range'_1] at hj
    exact (h.lt i hi).trans_le hj.1
  lt := by
    intro i hi
    rcases List.mem_append.mp hi with hi | hi
    · have := h.lt i hi
      omega
    · exact (List.mem_range'_1.mp hi).2
  returned_eq := by
    rw [List.map_append, List.map_append, h.returned_eq]
    congr 1
    ext1 j
    simp only [List.getElem?_map, List.getElem?_take, List.getElem?_drop]
    by_cases hj : j < k
    · rw [if_pos hj, List.getElem?_range' hj, Nat.one_mul,
        List.getElem?_eq_getElem (show n + j < received.length by omega)]
      simp
    · simp [hj]
  covered := by
    intro i hi
    by_cases hlt : i < n
    · exact (h.covered i hlt).imp_left fun hmem => List.mem_append_left _ hmem
    · exact .inl (List.mem_append_right _ (List.mem_range'_1.mpr ⟨by omega, hi⟩))

end Accounts

namespace SerialRx

variable {s s' : SerialRx}

/-- The bytes `bs` are copied: returned now, with `out` moved `n` places, they keep the
account. -/
def Ready (s : SerialRx) (n : ℕ) (bs : List UInt8) : Prop :=
  n ≤ s.rxFifo.used ∧
    ∃ idx, Accounts s.received (s.returned ++ bs) s.exposed (s.oldest + n) idx

/-- What the local variables of the call say about the FIFO. -/
def Locals (s : SerialRx) : Prop :=
  let fifo := s.rxFifo
  match s.pc with
  | .idle | .getIn _ | .getcIn => True
  | .getOut len inn => (inn - fifo.out).toNat ≤ fifo.used ∨
      fifo.used = fifo.size.toNat ∧ len ≤ fifo.size
  | .getPlace len => len.toNat ≤ fifo.used
  | .getSource len l => len.toNat ≤ fifo.used ∧ l = minU32 len (fifo.size - fifo.mask fifo.out)
  | .getCopy len l pos bs =>
      (len.toNat ≤ fifo.used ∧ l = minU32 len (fifo.size - fifo.mask fifo.out) ∧
        pos = fifo.mask fifo.out ∧ bs.length ≤ len.toNat ∧ bs = fifo.queue.take bs.length) ∨
      bs.length = len.toNat ∧ s.Ready len.toNat bs
  | .getcOut inn => inn = fifo.out ∨ 0 < fifo.used
  | .getcPlace => 0 < fifo.used
  | .getcByte pos => pos = fifo.mask fifo.out ∧ 0 < fifo.used
  | .getcUpdate c => s.Ready 1 [c]

/-- The invariant, before a full FIFO is written down. -/
structure Sound (s : SerialRx) : Prop where
  valid : s.rxFifo.Valid
  used_le : s.rxFifo.used ≤ s.received.length
  queue : s.rxFifo.queue = s.received.drop s.oldest
  faithful : s.Faithful
  locals : s.Locals

/-- The invariant. -/
structure Inv (s : SerialRx) : Prop extends s.Sound where
  full : s.rxFifo.used = s.rxFifo.size.toNat → s.oldest ∈ s.exposed

theorem subset_note (s : SerialRx) : s.exposed ⊆ s.note.exposed := by
  unfold note
  dsimp only
  split
  · exact List.subset_cons_self _ _
  · exact List.Subset.refl _

theorem oldest_mem_note (s : SerialRx) (hfull : s.rxFifo.used = s.rxFifo.size.toNat) :
    s.oldest ∈ s.note.exposed := by
  unfold note
  dsimp only
  rw [if_pos hfull]
  exact List.mem_cons_self

theorem Sound.note (h : s.Sound) : s.note.Inv where
  valid := h.valid
  used_le := h.used_le
  queue := h.queue
  faithful := h.faithful.imp fun _ hidx => hidx.expose s.subset_note
  locals := by
    have hready : ∀ {n bs}, s.Ready n bs → s.note.Ready n bs := fun hr =>
      ⟨hr.1, hr.2.imp fun _ hidx => hidx.expose s.subset_note⟩
    have hloc := h.locals
    obtain ⟨fifo, pc, received, returned, exposed⟩ := s
    cases pc with
    | getCopy len l pos bs => exact hloc.imp_right fun hr => ⟨hr.1, hready hr.2⟩
    | getcUpdate c => exact hready hloc
    | _ => exact hloc
  full := s.oldest_mem_note

/-! ### The steps of the main loop -/

/-- The call goes on, and nothing else changes. -/
theorem Sound.goto (h : s.Sound) {pc : RxPc} (hloc : ({ s with pc := pc } : SerialRx).Locals) :
    ({ s with pc := pc } : SerialRx).Sound :=
  ⟨h.valid, h.used_le, h.queue, h.faithful, hloc⟩

/-- The bytes at the front of the FIFO may be returned. -/
theorem Sound.ready (h : s.Sound) {n : ℕ} (hn : n ≤ s.rxFifo.used) :
    s.Ready n (s.rxFifo.queue.take n) := by
  obtain ⟨idx, hidx⟩ := h.faithful
  have hle := h.used_le
  refine ⟨hn, idx ++ List.range' s.oldest n, ?_⟩
  rw [h.queue]
  exact hidx.append (by unfold oldest; omega)

/-- The update of `out`. -/
theorem Sound.update (h : s.Sound) {n : UInt32} {bs : List UInt8} (hr : s.Ready n.toNat bs) :
    ({ s with
      rxFifo := { s.rxFifo with out := s.rxFifo.out + n }
      pc := .idle
      returned := s.returned ++ bs } : SerialRx).Sound := by
  obtain ⟨hn, hidx⟩ := hr
  obtain ⟨hv, hq⟩ := h.valid.advance_out hn
  have hused := Kfifo.used_advance_out hn s.rxFifo.buffer
  have hle := h.used_le
  -- the oldest byte is `n` bytes further on
  have hold : s.received.length - (s.rxFifo.used - n.toNat) = s.oldest + n.toNat := by
    unfold oldest
    omega
  refine ⟨hv, ?_, ?_, ?_, trivial⟩
  · exact hused.trans_le ((Nat.sub_le _ _).trans hle)
  · unfold oldest
    dsimp only
    rw [hused, hold, hq, h.queue, List.drop_drop]
  · unfold Faithful oldest
    dsimp only
    rw [hused, hold]
    exact hidx

/-- The call has copied `k` bytes. -/
def atCopy (s : SerialRx) (len l : UInt32) (k : ℕ) : SerialRx :=
  { s with pc := .getCopy len l (s.rxFifo.mask s.rxFifo.out) (s.rxFifo.queue.take k) }

/-- One byte is copied. -/
theorem main_copy (hv : s.rxFifo.Valid) {len l : UInt32} {k : ℕ} (hlen : len.toNat ≤ s.rxFifo.used)
    (hl : l = minU32 len (s.rxFifo.size - s.rxFifo.mask s.rxFifo.out)) (hk : k < len.toNat)
    (hpc : s.pc = (s.atCopy len l k).pc) : s.main = some (s.atCopy len l (k + 1)) := by
  have hku : k < s.rxFifo.used := hk.trans_le hlen
  have hlv := hv.piece_toNat len s.rxFifo.out
  rw [← hl] at hlv
  have hcell := cell_of_piece hlv hk (hlen.trans hv.used_le) hv.size_pos
  have hin : cell s.rxFifo.size.toNat s.rxFifo.out.toNat k < s.rxFifo.size.toNat :=
    Nat.mod_lt _ hv.size_pos
  have htake : (s.rxFifo.queue.take k).length = k := by
    rw [List.length_take, s.rxFifo.queue_length, min_eq_left hku.le]
  simp only [main, hpc, atCopy, htake]
  rw [if_pos hk, hv.mask_toNat, hcell, if_pos hin, ← Kfifo.take_succ_queue hku]

/-- **A step of the main loop** is taken, and keeps the invariant. -/
theorem Sound.main (h : s.Sound) (hpc : s.pc ≠ .idle) : ∃ s', s.main = some s' ∧ s'.Sound := by
  have hv := h.valid
  have hused := hv.used_le
  have hloc := h.locals
  obtain ⟨fifo, pc, received, returned, exposed⟩ := s
  cases pc with
  | idle => exact absurd rfl hpc
  | getIn len => exact ⟨_, rfl, h.goto (.inl le_rfl)⟩
  | getOut len inn =>
    refine ⟨_, rfl, h.goto ?_⟩
    show (minU32 len (inn - fifo.out)).toNat ≤ fifo.used
    rw [minU32_toNat]
    rcases hloc with hle | ⟨hfull, hlen⟩
    · exact (min_le_right _ _).trans hle
    · rw [hfull]
      exact (min_le_left _ _).trans hlen
  | getPlace len => exact ⟨_, rfl, h.goto ⟨hloc, rfl⟩⟩
  | getSource len l =>
    exact ⟨_, rfl, h.goto (.inl ⟨hloc.1, hloc.2, rfl, Nat.zero_le _, rfl⟩)⟩
  | getCopy len l pos bs =>
    by_cases hlt : bs.length < len.toNat
    · rcases hloc with ⟨hlen, hl, hpos, -, hbs⟩ | ⟨heq, -⟩
      · have htake : (fifo.queue.take (bs.length + 1)).length = bs.length + 1 := by
          rw [List.length_take, fifo.queue_length]
          exact min_eq_left (hlt.trans_le hlen)
        have hmain := main_copy hv hlen hl hlt (congrArg₂ (RxPc.getCopy len l) hpos hbs)
        refine ⟨_, hmain, h.goto (.inl ⟨hlen, hl, rfl, ?_, ?_⟩)⟩
        · exact htake.trans_le hlt
        · rw [htake]
      · exact absurd heq hlt.ne
    · refine ⟨_, if_neg hlt, h.update ?_⟩
      rcases hloc with ⟨hlen, -, -, hle, hbs⟩ | ⟨-, hready⟩
      · rw [hbs, le_antisymm hle (not_lt.mp hlt)]
        exact h.ready hlen
      · exact hready
  | getcIn =>
    refine ⟨_, rfl, h.goto ?_⟩
    rcases Nat.eq_zero_or_pos fifo.used with hzero | hpos
    · exact .inl (Kfifo.used_eq_zero_iff.mp hzero)
    · exact .inr hpos
  | getcOut inn =>
    refine ⟨_, rfl, h.goto ?_⟩
    by_cases hinn : inn = fifo.out
    · rw [if_pos hinn]
      trivial
    · rw [if_neg hinn]
      exact hloc.resolve_left hinn
  | getcPlace => exact ⟨_, rfl, h.goto ⟨rfl, hloc⟩⟩
  | getcByte pos =>
    obtain ⟨hpos, hone⟩ := hloc
    have hin : pos.toNat < fifo.size.toNat := by
      rw [hpos]
      exact hv.mask_add_one_le _
    refine ⟨_, if_pos hin, h.goto ?_⟩
    -- the byte is the first of the queue
    have hready := h.ready hone
    rw [Kfifo.take_succ_queue hone] at hready
    rw [hpos, hv.mask_toNat]
    exact hready
  | getcUpdate c => exact ⟨_, rfl, h.update (n := 1) hloc⟩

/-- The copying, when nothing comes between. -/
theorem exec_copy {len l : UInt32} (k : ℕ) : ∀ {s : SerialRx} {j : ℕ}, s.rxFifo.Valid →
    len.toNat ≤ s.rxFifo.used →
    l = minU32 len (s.rxFifo.size - s.rxFifo.mask s.rxFifo.out) → j + k = len.toNat →
    s.pc = (s.atCopy len l j).pc →
    ∃ e, exec rxStep s (List.replicate k .main)
      = some { s.atCopy len l len.toNat with exposed := e } := by
  induction k with
  | zero =>
    intro s j _ _ _ hj hpc
    refine ⟨s.exposed, ?_⟩
    rw [← hj, Nat.add_zero]
    obtain ⟨fifo, pc, received, returned, exposed⟩ := s
    obtain rfl : pc = .getCopy len l (fifo.mask fifo.out) (fifo.queue.take j) := hpc
    rfl
  | succ k ih =>
    intro s j hv hlen hl hjk hpc
    have hmain := main_copy hv hlen hl (by omega) hpc
    obtain ⟨e, he⟩ := ih (s := (s.atCopy len l (j + 1)).note) (j := j + 1) hv hlen hl (by omega) rfl
    refine ⟨e, ?_⟩
    rw [List.replicate_succ, exec, rxStep, hmain, Option.map_some, Option.bind_some, he]
    rfl

/-- **The elementary steps are those of `kfifo_get`**: with nothing between them they
return what `kfifoGet` returns, and leave the FIFO as it does. -/
theorem exec_get (hv : s.rxFifo.Valid) (hpc : s.pc = .idle) {len n : UInt32} {bs : List UInt8}
    {fifo' : Kfifo} (hget : kfifoGet s.rxFifo len = some (n, bs, fifo')) :
    ∃ e, exec rxStep s (.get len :: List.replicate (n.toNat + 5) .main) = some { s with
      rxFifo := fifo', returned := s.returned ++ bs, exposed := e } := by
  obtain ⟨n', fifo₁, heq, -, -, hn, -⟩ := hv.get len
  obtain ⟨rfl, rfl⟩ := Kfifo.kfifoGet_eq_some hget
  rw [hget, Option.some.injEq, Prod.mk.injEq, Prod.mk.injEq] at heq
  obtain ⟨rfl, rfl, -⟩ := heq
  obtain ⟨n, hmin⟩ : ∃ n, n = minU32 len (s.rxFifo.inn - s.rxFifo.out) := ⟨_, rfl⟩
  obtain ⟨l, hl⟩ : ∃ l, l = minU32 n (s.rxFifo.size - s.rxFifo.mask s.rxFifo.out) := ⟨_, rfl⟩
  rw [← hmin] at hn ⊢
  have hle : n.toNat ≤ s.rxFifo.used := by omega
  -- the counters are read
  obtain ⟨e₁, hread⟩ : ∃ e, exec rxStep s [.get len, .main, .main, .main, .main]
      = some { s.atCopy n l 0 with exposed := e } := by
    rw [exec, rxStep, if_pos hpc, hl, hmin]
    exact ⟨_, rfl⟩
  obtain ⟨e₂, hcopy⟩ := exec_copy (s := { s.atCopy n l 0 with exposed := e₁ }) n.toNat hv hle hl
    (Nat.zero_add _) rfl
  have hops : RxOp.get len :: List.replicate (n.toNat + 5) RxOp.main
      = [RxOp.get len, RxOp.main, RxOp.main, RxOp.main, RxOp.main] ++
        (List.replicate n.toNat RxOp.main ++ [RxOp.main]) := by
    rw [← List.replicate_succ']
    rfl
  have htake : (s.rxFifo.queue.take n.toNat).length = n.toNat := by
    rw [List.length_take, s.rxFifo.queue_length, min_eq_left hle]
  rw [hops, exec_append hread, exec_append hcopy, exec, rxStep, main]
  simp only [atCopy, htake, lt_irrefl, if_false, hpc]
  exact ⟨_, rfl⟩

/-! ### The interrupt -/

/-- A counter that moves towards another gets no further from it. -/
theorem toNat_sub_succ_le {m n : UInt32} (h : m ≠ n) : (m - (n + 1)).toNat ≤ (m - n).toNat := by
  rw [← UInt32.toNat_inj.ne] at h
  have hm := m.toNat_lt
  have hn := n.toNat_lt
  rw [UInt32.toNat_sub, UInt32.toNat_sub, UInt32.toNat_add, UInt32.toNat_one]
  omega

/-- A byte is received by a FIFO that is not full: nothing moves under the reader. -/
theorem Inv.irq_room (h : s.Inv) {c : UInt8} (hroom : s.rxFifo.used ≠ s.rxFifo.size.toNat)
    {fifo' : Kfifo} (hput : kfifoPutc s.rxFifo c = some fifo') :
    ({ s with rxFifo := fifo', received := s.received ++ [c] } : SerialRx).Sound := by
  obtain ⟨fifo₁, hput₁, hv, hsize, hq⟩ := h.valid.putc c
  obtain rfl := Option.some.inj (hput.symm.trans hput₁)
  have hout := h.valid.putc_out hput
  rw [if_neg hroom] at hq hout
  have hle := h.used_le
  have hused : fifo'.used = s.rxFifo.used + 1 := by
    rw [← fifo'.queue_length, hq, List.length_append, s.rxFifo.queue_length]
    rfl
  have hold : (s.received ++ [c]).length - fifo'.used = s.oldest := by
    rw [hused, List.length_append]
    exact Nat.add_sub_add_right _ 1 _
  have holdle : s.oldest ≤ s.received.length := Nat.sub_le _ _
  have hmask : fifo'.mask fifo'.out = s.rxFifo.mask s.rxFifo.out := by
    rw [Kfifo.mask, hsize, hout]
    rfl
  have hready : ∀ {n bs}, s.Ready n bs →
      ({ s with rxFifo := fifo', received := s.received ++ [c] } : SerialRx).Ready n bs := by
    rintro n bs ⟨hn, idx, hidx⟩
    refine ⟨?_, idx, ?_⟩
    · show n ≤ fifo'.used
      omega
    · unfold oldest
      dsimp only
      rw [hold]
      exact hidx.receive (by unfold oldest; omega) c
  refine ⟨hv, ?_, ?_, ?_, ?_⟩
  · show fifo'.used ≤ (s.received ++ [c]).length
    rw [hused, List.length_append]
    exact Nat.succ_le_succ hle
  · show fifo'.queue = (s.received ++ [c]).drop ((s.received ++ [c]).length - fifo'.used)
    rw [hold, hq, h.queue, List.drop_append_of_le_length holdle]
  · obtain ⟨idx, hidx⟩ := h.faithful
    refine ⟨idx, ?_⟩
    unfold oldest
    dsimp only
    rw [hold]
    exact hidx.receive holdle c
  · have hloc := h.locals
    obtain ⟨fifo, pc, received, returned, exposed⟩ := s
    cases pc with
    | getOut len inn =>
      refine hloc.imp (fun hlen => ?_) fun hfull => absurd hfull.1 hroom
      show (inn - fifo'.out).toNat ≤ fifo'.used
      rw [hout, hused]
      exact Nat.le_succ_of_le hlen
    | getPlace len => exact hloc.trans (hused ▸ Nat.le_succ _)
    | getSource len l =>
      obtain ⟨hlen, hl⟩ := hloc
      refine ⟨hlen.trans (hused ▸ Nat.le_succ _), ?_⟩
      show l = minU32 len (fifo'.size - fifo'.mask fifo'.out)
      rw [hmask, hsize]
      exact hl
    | getCopy len l pos bs =>
      refine hloc.imp ?_ fun hr => ⟨hr.1, hready hr.2⟩
      rintro ⟨hlen, hl, hpos, hle', hbs⟩
      refine ⟨hlen.trans (hused ▸ Nat.le_succ _), ?_, hpos.trans hmask.symm, hle', ?_⟩
      · show l = minU32 len (fifo'.size - fifo'.mask fifo'.out)
        rw [hmask, hsize]
        exact hl
      · show bs = fifo'.queue.take bs.length
        rw [hq, List.take_append_of_le_length]
        · exact hbs
        · rw [fifo.queue_length]
          exact hle'.trans hlen
    | getcOut inn => exact .inr (hused ▸ Nat.succ_pos _)
    | getcPlace => exact hloc.trans (hused ▸ Nat.lt_succ_self _)
    | getcByte pos => exact ⟨hloc.1.trans hmask.symm, hused ▸ Nat.succ_pos _⟩
    | getcUpdate c => exact hready hloc
    | _ => trivial

/-- A byte is received by a full FIFO, and the oldest one makes room. -/
theorem Inv.irq_full (h : s.Inv) {c : UInt8} (hfull : s.rxFifo.used = s.rxFifo.size.toNat)
    (hsafe : RxSafe s (.irq c)) {fifo' : Kfifo} (hput : kfifoPutc s.rxFifo c = some fifo') :
    (({ s with rxFifo := fifo', received := s.received ++ [c] } : SerialRx).note).Inv := by
  obtain ⟨fifo₁, hput₁, hv, hsize, hq⟩ := h.valid.putc c
  obtain rfl := Option.some.inj (hput.symm.trans hput₁)
  have hout := h.valid.putc_out hput
  rw [if_pos hfull] at hq hout
  have hle := h.used_le
  have hpos := h.valid.size_pos
  have hexposed := h.full hfull
  have hused : fifo'.used = s.rxFifo.used := by
    rw [← fifo'.queue_length, hq, List.length_append, List.length_drop, s.rxFifo.queue_length,
      List.length_singleton]
    omega
  have hfull' : fifo'.used = fifo'.size.toNat := by rw [hused, hsize, hfull]
  have hupos : 0 < fifo'.used := hv.size_pos.trans_eq hfull'.symm
  have hold : (s.received ++ [c]).length - fifo'.used = s.oldest + 1 := by
    rw [hused, List.length_append]
    exact Nat.sub_add_comm hle
  have hlt : s.oldest + 1 ≤ s.received.length := by
    unfold oldest
    omega
  -- the new oldest byte is written down at once
  obtain ⟨t, ht⟩ : ∃ t : SerialRx, t = { s with rxFifo := fifo', received := s.received ++ [c] } :=
    ⟨_, rfl⟩
  have hnext : s.oldest + 1 ∈ t.note.exposed := by
    rw [← hold]
    subst ht
    exact oldest_mem_note _ hfull'
  have hsub : s.exposed ⊆ t.note.exposed := by
    rw [← congrArg SerialRx.exposed ht]
    exact t.subset_note
  have hready : ∀ {n bs}, n ≤ 1 → s.Ready n bs → t.note.Ready n bs := by
    rintro n bs hn ⟨hnu, idx, hidx⟩
    have hmem : s.oldest + n ∈ t.note.exposed := by
      rcases Nat.le_one_iff_eq_zero_or_eq_one.mp hn with rfl | rfl
      · exact hsub hexposed
      · exact hnext
    subst ht
    refine ⟨hnu.trans hused.ge, idx, ?_⟩
    have hskip := ((hidx.receive (by unfold oldest; omega) c).expose hsub).skip hmem
    rw [Nat.add_right_comm, ← hold] at hskip
    exact hskip
  have hfaithful : t.note.Faithful := by
    obtain ⟨idx, hidx⟩ := h.faithful
    have hskip := ((hidx.receive (Nat.le_of_succ_le hlt) c).expose hsub).skip (hsub hexposed)
    rw [← hold] at hskip
    subst ht
    exact ⟨idx, hskip⟩
  have hloc : t.note.Locals := by
    have hloc := h.locals
    obtain ⟨fifo, pc, received, returned, exposed⟩ := s
    subst ht
    cases pc with
    | getOut len inn =>
      by_cases hlen : len ≤ fifo.size
      · exact .inr ⟨hfull', hsize ▸ hlen⟩
      · have hne : inn ≠ fifo.out := (hsafe hfull).resolve_right hlen
        have hdist := hloc.resolve_right fun hr => hlen hr.2
        refine .inl ?_
        show (inn - fifo'.out).toNat ≤ fifo'.used
        rw [hout, hused]
        exact (toNat_sub_succ_le hne).trans hdist
    | getPlace len => exact hloc.trans hused.ge
    | getSource len l =>
      refine ⟨hloc.1.trans hused.ge, ?_⟩
      show l = minU32 len (fifo'.size - fifo'.mask fifo'.out)
      rw [Kfifo.mask, hsize, hout]
      exact hsafe hfull
    | getCopy len l pos bs =>
      obtain ⟨heq, hone⟩ := hsafe hfull
      refine .inr ⟨heq, hready hone ?_⟩
      rcases hloc with ⟨hlen, -, -, -, hbs⟩ | ⟨-, hr⟩
      · rw [hbs, heq]
        exact h.ready hlen
      · exact hr
    | getcOut inn => exact .inr hupos
    | getcPlace => exact hupos
    | getcByte pos => exact (hsafe hfull).elim
    | getcUpdate c => exact hready le_rfl hloc
    | _ => trivial
  subst ht
  refine ⟨⟨hv, ?_, ?_, hfaithful, hloc⟩,
    oldest_mem_note { s with rxFifo := fifo', received := s.received ++ [c] }⟩
  · show fifo'.used ≤ (s.received ++ [c]).length
    rw [hused, List.length_append]
    exact Nat.le_succ_of_le hle
  · show fifo'.queue = (s.received ++ [c]).drop ((s.received ++ [c]).length - fifo'.used)
    rw [hold, hq, h.queue, List.drop_drop, List.drop_append_of_le_length hlt]

/-- **Step.**  A step with a safe interrupt, if any, keeps the invariant. -/
theorem Inv.step (h : s.Inv) {op : RxOp} (hsafe : RxSafe s op) (heq : rxStep s op = some s') :
    s'.Inv := by
  cases op with
  | get len =>
    rw [rxStep, Option.ite_none_right_eq_some] at heq
    obtain ⟨-, heq⟩ := heq
    obtain rfl := Option.some.inj heq
    exact ⟨h.goto trivial, h.full⟩
  | getc =>
    rw [rxStep, Option.ite_none_right_eq_some] at heq
    obtain ⟨-, heq⟩ := heq
    obtain rfl := Option.some.inj heq
    exact ⟨h.goto trivial, h.full⟩
  | main =>
    obtain ⟨s₁, hmain, rfl⟩ := Option.map_eq_some_iff.mp heq
    have hpc : s.pc ≠ .idle := by
      intro hidle
      rw [SerialRx.main, hidle] at hmain
      cases hmain
    obtain ⟨s₂, hmain₂, hs₂⟩ := h.main hpc
    obtain rfl := Option.some.inj (hmain.symm.trans hmain₂)
    exact hs₂.note
  | irq c =>
    obtain ⟨s₁, hirq, rfl⟩ := Option.map_eq_some_iff.mp heq
    obtain ⟨fifo', hput, rfl⟩ := Option.map_eq_some_iff.mp hirq
    by_cases hfull : s.rxFifo.used = s.rxFifo.size.toNat
    · exact h.irq_full hfull hsafe hput
    · exact (h.irq_room hfull hput).note

theorem inv_opened (buffer : ℕ → UInt8) : (opened buffer).Inv := by
  obtain ⟨hv, hq⟩ := @kfifoInitStatic_valid buffer maxUsartBuf ⟨7, by omega, rfl⟩
  have hused : (kfifoInitStatic buffer maxUsartBuf).used = 0 := Kfifo.used_eq_zero_iff.mpr rfl
  have hold : (opened buffer).oldest = 0 := Nat.zero_sub _
  refine ⟨⟨hv, hused.le, hq.trans List.drop_nil.symm, ⟨[], ?_⟩, trivial⟩, fun hfull => ?_⟩
  · rw [hold]
    exact .nil [] []
  · have hsize : maxUsartBuf.toNat = 0 := hfull.symm.trans hused
    exact absurd hsize (by decide)

end SerialRx

/-- **The serial receive path**, as far as it works.  After every run on an open port in
which every interrupt is safe, the bytes returned are received bytes in order, none
twice; every byte that will not be returned any more was the oldest one of a full
FIFO; and a call that has begun can go on. -/
theorem serial_rx_faithful (buffer : ℕ → UInt8) {ops : List RxOp} {s : SerialRx}
    (hsafe : Meets rxStep RxSafe (.opened buffer) ops)
    (hrun : exec rxStep (.opened buffer) ops = some s) :
    s.Faithful ∧ (s.pc ≠ .idle → s.main ≠ none) := by
  have hinv : s.Inv := exec_invariant (P := SerialRx.Inv)
    (fun _ _ _ h hC heq => h.step hC heq) (SerialRx.inv_opened buffer) hsafe hrun
  refine ⟨hinv.faithful, fun hpc hnone => ?_⟩
  obtain ⟨s', hmain, -⟩ := hinv.main hpc
  rw [hnone] at hmain
  cases hmain

/-- Three bytes arrive and two are asked for; the interrupt comes while they are
copied. -/
def rxThree : List RxOp :=
  [.irq 1, .irq 2, .irq 3, .get 2, .main, .main, .main, .main, .main, .irq 4, .main, .main]

theorem serial_rx_faithful_three : ∃ s, exec rxStep (.opened fun _ => 0) rxThree = some s ∧
    s.returned = [1, 2] ∧ s.Faithful := by
  have hret : (exec rxStep (.opened fun _ => 0) rxThree).map SerialRx.returned = some [1, 2] := by
    decide +kernel
  obtain ⟨s, hrun, hs⟩ := Option.map_eq_some_iff.mp hret
  exact ⟨s, hrun, hs, (serial_rx_faithful (fun _ => 0) (by decide +kernel) hrun).1⟩

/-- 128 bytes fill the FIFO, two are asked for and copied, and one more arrives before
`out` is updated. -/
def rxFull : List RxOp :=
  (List.range 128).map (fun i => .irq (UInt8.ofNat i)) ++
    [.get 2, .main, .main, .main, .main, .main, .main, .irq 128, .main]

/-- Byte 2 is neither returned nor kept, and was never the oldest one of a full FIFO. -/
theorem serial_rx_loses : ∃ s, exec rxStep (.opened fun _ => 0) rxFull = some s ∧
    s.returned = [0, 1] ∧ ¬ s.Faithful := by
  have hval : (exec rxStep (.opened fun _ => 0) rxFull).map
      (fun s => (s.returned, s.received[2]?, s.oldest, decide (2 ∈ s.exposed)))
      = some ([0, 1], some 2, 3, false) := by
    decide +kernel
  obtain ⟨s, hrun, hs⟩ := Option.map_eq_some_iff.mp hval
  simp only [Prod.mk.injEq, decide_eq_false_iff_not] at hs
  obtain ⟨hret, hrec, hold, hexp⟩ := hs
  refine ⟨s, hrun, hret, ?_⟩
  rintro ⟨idx, hidx⟩
  rcases hidx.covered 2 (by rw [hold]; decide) with hmem | hmem
  · -- only the values 0 and 1 were returned
    have hin := List.mem_map_of_mem (f := fun i => s.received[i]?) hmem
    rw [← hidx.returned_eq, hret, hrec] at hin
    simp at hin
  · exact hexp hmem

end Start01
