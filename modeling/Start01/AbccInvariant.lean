/-
Start01/AbccInvariant.lean

What holds of the data link of the Anybus driver between any two rounds of its loop, as far as it
is not about the messages that telegrams carry:

* `Stored` — where the buffers are, and which messages they hold;
* `Phase` — telegrams and answers alternate, and each has the T bit of its number.

Each is kept by every move, and follows from what the move says alone.
-/
import Start01.AbccMoves
import Start01.Lib.Fragment
import Start01.Lib.Toggle

namespace Start01

open Scatter Link Fragment Toggle

/-! ### Messages -/

/-- The queue that a message to the module goes through. -/
def kindOf (m : List UInt8) : Pool :=
  if m.getD 4 0 &&& 0x40 ≠ 0 then .cmdToAbcc else .rspToAbcc

theorem length_msgBytes (m : ℕ → UInt8) : (msgBytes m).length = 8 + (m 5).toNat :=
  length_chkBytes m 0 _

theorem kindOf_msgBytes (m : ℕ → UInt8) : kindOf (msgBytes m) = poolOf m := by
  have h4 : (msgBytes m).getD 4 0 = m 4 := getD_chkBytes m (by rw [msgLength]; unfold sizeofMsgHeader; omega)
  rw [kindOf, h4, poolOf, isCommand, bCmd]
  simp only [decide_eq_true_eq]

theorem msgBytes_congr {m m' : ℕ → UInt8} (h : ∀ i < 8 + (m 5).toNat, m' i = m i) :
    msgBytes m' = msgBytes m := by
  have h5 : m' 5 = m 5 := h 5 (by omega)
  have hlen : msgLength m' = msgLength m := by
    unfold msgLength bDataSize
    rw [h5]
  rw [msgBytes, hlen]
  exact chkBytes_congr fun j hj => by
    rw [Nat.zero_add]
    exact h j hj

/-- The number of fragments of a message. -/
def fragsOf (m : ℕ → UInt8) : ℕ := (msgLength m + 15) / 16

theorem toNat_nbrOfFragments (m : ℕ → UInt8) : (nbrOfFragments m).toNat = fragsOf m := by
  have hlt := (bDataSize m).toNat_lt
  have hsmall : (bDataSize m).toNat + sizeofMsgHeader ≤ 263 := by
    unfold sizeofMsgHeader
    omega
  have hcast : (UInt8.ofNat (((bDataSize m).toNat + sizeofMsgHeader) / 16)).toNat
      = ((bDataSize m).toNat + sizeofMsgHeader) / 16 := by
    rw [UInt8.toNat_ofNat', Nat.mod_eq_of_lt (by omega)]
  rw [nbrOfFragments, fragsOf, msgLength, Nat.add_comm sizeofMsgHeader]
  split
  · rw [UInt8.toNat_add, hcast, Nat.mod_eq_of_lt (by
      show _ + 1 < 256
      omega)]
    show _ + 1 = _
    omega
  · rw [hcast]
    omega

/-- An acknowledged remap command asks for no more process data than there is room for. -/
def RemapOk (m : ℕ → UInt8) : Prop :=
  isCommand m = false → isRemapAck m 0x13 = true → word m 8 ≤ 256

theorem RemapOk.congr {m m' : ℕ → UInt8} (hm : RemapOk m)
    (h : ∀ i < 8 + (m 5).toNat, m' i = m i) : RemapOk m' := by
  have h4 : bCmd m' = bCmd m := h 4 (by omega)
  have h5 : bDataSize m' = bDataSize m := h 5 (by omega)
  have hack : isRemapAck m' 0x13 = isRemapAck m 0x13 := by
    unfold isRemapAck isError cmdBits bDestObj
    rw [h4, h5, h 1 (by omega)]
  intro hcmd hack'
  rw [isCommand, h4] at hcmd
  rw [hack] at hack'
  -- the acknowledgment has two bytes of data
  have hsize : bDataSize m = 2 := by
    unfold isRemapAck at hack'
    simp only [Bool.and_eq_true, beq_iff_eq] at hack'
    exact hack'.2
  have htwo : (m 5).toNat = 2 := congrArg UInt8.toNat hsize
  have hword : word m' 8 = word m 8 := by
    rw [word, word, h 8 (by omega), h 9 (by omega)]
  rw [hword]
  exact hm hcmd hack'

/-! ### Buffers and queues -/

/-- A message that waits to be sent. -/
structure Waiting (b : BufMsg) : Prop where
  frags : b.bNbrOfFragments.toNat = fragsOf b.sMsg
  counter : b.bFragCounter = 0
  remap : RemapOk b.sMsg

/-- The buffers, the queues and what has passed through them. -/
structure Stored (v : Link) (ls : Pool → List BufRef) (held : List BufRef) : Prop where
  queued : Queued v.buf v.queue ls held
  waiting : ∀ p, p ≠ .msgToAppl → ∀ r ∈ ls p, Waiting (v.buf r) ∧ poolOf (v.buf r).sMsg = p
  posted : ∀ p, p ≠ .msgToAppl → v.posted.filter (kindOf · = p)
    = v.begun.filter (kindOf · = p) ++ (ls p).map fun r => msgBytes (v.buf r).sMsg
  delivered : v.delivered
    = v.taken ++ (ls .msgToAppl).map fun r => msgBytes (v.buf r).sMsg

namespace Stored

variable {v v' : Link} {ls : Pool → List BufRef} {held : List BufRef} {r : BufRef}

/-- A buffer that is in no queue may change. -/
theorem of_buf (h : Stored v ls held) {held' : List BufRef} {b : BufMsg}
    (hq : Queued (v.putBuf r b).buf v.queue ls held') (hr : ∀ p, r ∉ ls p) :
    Stored (v.putBuf r b) ls held' := by
  have hsame : ∀ p, ∀ r' ∈ ls p, (v.putBuf r b).buf r' = v.buf r' := by
    intro p r' hr'
    refine Function.update_of_ne (fun heq => hr p ?_) _ _
    exact heq ▸ hr'
  have hmap : ∀ p, ((ls p).map fun r' => msgBytes ((v.putBuf r b).buf r').sMsg)
      = (ls p).map fun r' => msgBytes (v.buf r').sMsg := by
    intro p
    exact List.map_congr_left fun r' hr' => by rw [hsame p r' hr']
  refine ⟨hq, fun p hp r' hr' => ?_, fun p hp => ?_, ?_⟩
  · rw [hsame p r' hr']
    exact h.waiting p hp r' hr'
  · rw [hmap]
    exact h.posted p hp
  · rw [hmap]
    exact h.delivered

/-- A buffer held is written. -/
theorem putBuf (h : Stored v ls (r :: held)) {b : BufMsg}
    (hb : b.fEntryUsed = (v.buf r).fEntryUsed) : Stored (v.putBuf r b) ls (r :: held) :=
  h.of_buf (h.queued.write b hb) h.queued.not_mem_of_held

/-- A buffer held is given free. -/
theorem free (h : Stored v ls (r :: held)) {b : BufMsg} (hb : b.fEntryUsed = false) :
    Stored (v.putBuf r b) ls held :=
  h.of_buf (h.queued.free hb) h.queued.not_mem_of_held

/-- A buffer is taken. -/
theorem allocate (h : Stored v ls held) (hfree : (v.buf r).fEntryUsed = false)
    (hlt : r.entry < r.pool.length) {b : BufMsg} (hb : b.fEntryUsed = true) :
    Stored (v.putBuf r b) ls (r :: held) := by
  refine h.of_buf (h.queued.allocate hfree hlt hb) fun p hr => ?_
  rw [h.queued.used_of_mem hr] at hfree
  cases hfree

/-- A message held is put into its queue. -/
theorem post (h : Stored v ls (r :: held)) (hw : Waiting (v.buf r))
    (hpool : poolOf (v.buf r).sMsg = r.pool) :
    ∃ q, (v.queue r.pool).add r = some q ∧ Stored { v with
      queue := Function.update v.queue r.pool q
      posted := v.posted ++ [msgBytes (v.buf r).sMsg] }
      (Function.update ls r.pool (ls r.pool ++ [r])) held := by
  have hne : r.pool ≠ .msgToAppl := by
    rw [← hpool, poolOf]
    split <;> decide
  obtain ⟨q, hadd, hqueued⟩ := h.queued.add
  refine ⟨q, hadd, hqueued, fun p hp r' hr' => ?_, fun p hp => ?_, ?_⟩
  · by_cases heq : p = r.pool
    · subst heq
      rw [Function.update_self] at hr'
      rcases List.mem_append.mp hr' with hr' | hr'
      · exact h.waiting _ hp r' hr'
      · rw [List.mem_singleton.mp hr']
        exact ⟨hw, hpool⟩
    · rw [Function.update_of_ne heq] at hr'
      exact h.waiting p hp r' hr'
  · show (v.posted ++ [_]).filter _ = v.begun.filter _ ++ _
    rw [List.filter_append, h.posted p hp, List.append_assoc]
    congr 1
    by_cases heq : p = r.pool
    · subst heq
      rw [Function.update_self, List.map_append,
        List.filter_cons_of_pos (by rw [kindOf_msgBytes, hpool]; exact decide_eq_true rfl)]
      rfl
    · rw [Function.update_of_ne heq, List.filter_cons_of_neg (by
        rw [kindOf_msgBytes, hpool, decide_eq_true_eq]
        exact Ne.symm heq), List.filter_nil, List.append_nil]
  · rw [Function.update_of_ne (Ne.symm hne)]
    exact h.delivered

/-- A message of the module is put into the queue. -/
theorem deliver (h : Stored v ls (r :: held)) (hpool : r.pool = .msgToAppl) :
    ∃ q, (v.queue .msgToAppl).add r = some q ∧ Stored { v with
      queue := Function.update v.queue .msgToAppl q
      delivered := v.delivered ++ [msgBytes (v.buf r).sMsg] }
      (Function.update ls .msgToAppl (ls .msgToAppl ++ [r])) held := by
  obtain ⟨q, hadd, hqueued⟩ := h.queued.add
  rw [hpool] at hadd hqueued
  refine ⟨q, hadd, hqueued, fun p hp r' hr' => ?_, fun p hp => ?_, ?_⟩
  · rw [Function.update_of_ne hp] at hr'
    exact h.waiting p hp r' hr'
  · rw [Function.update_of_ne hp]
    exact h.posted p hp
  · show v.delivered ++ [_] = v.taken ++ _
    rw [Function.update_self, List.map_append, ← List.append_assoc, h.delivered]
    rfl

/-- A message is taken from a queue to be sent. -/
theorem begin_ {p : Pool} {l : List BufRef} (h : Stored v ls held) (hp : p ≠ .msgToAppl)
    (hl : ls p = r :: l) :
    ∃ q, (v.queue p).getFirst = some (some r, q) ∧ Stored { v with
      queue := Function.update v.queue p q
      begun := v.begun ++ [msgBytes (v.buf r).sMsg] } (Function.update ls p l) (r :: held) := by
  obtain ⟨q, hfirst, hqueued⟩ := h.queued.getFirst hl
  obtain ⟨-, hkind⟩ := h.waiting p hp r (hl ▸ List.mem_cons_self)
  refine ⟨q, hfirst, hqueued, fun p' hp' r' hr' => ?_, fun p' hp' => ?_, ?_⟩
  · by_cases heq : p' = p
    · subst heq
      rw [Function.update_self] at hr'
      exact h.waiting _ hp' r' (hl ▸ List.mem_cons_of_mem r hr')
    · rw [Function.update_of_ne heq] at hr'
      exact h.waiting p' hp' r' hr'
  · show v.posted.filter _ = (v.begun ++ [_]).filter _ ++ _
    rw [List.filter_append, h.posted p' hp', List.append_assoc]
    congr 1
    by_cases heq : p' = p
    · subst heq
      rw [Function.update_self, hl, List.map_cons,
        List.filter_cons_of_pos (by rw [kindOf_msgBytes, hkind]; exact decide_eq_true rfl)]
      rfl
    · rw [Function.update_of_ne heq, List.filter_cons_of_neg (by
        rw [kindOf_msgBytes, hkind, decide_eq_true_eq]
        exact Ne.symm heq), List.filter_nil, List.nil_append]
  · rw [Function.update_of_ne (Ne.symm hp)]
    exact h.delivered

/-- A message is taken by the application. -/
theorem take {l : List BufRef} (h : Stored v ls held) (hl : ls .msgToAppl = r :: l) :
    ∃ q, (v.queue .msgToAppl).getFirst = some (some r, q) ∧ Stored { v with
      queue := Function.update v.queue .msgToAppl q
      taken := v.taken ++ [msgBytes (v.buf r).sMsg] }
      (Function.update ls .msgToAppl l) (r :: held) := by
  obtain ⟨q, hfirst, hqueued⟩ := h.queued.getFirst hl
  refine ⟨q, hfirst, hqueued, fun p hp r' hr' => ?_, fun p hp => ?_, ?_⟩
  · rw [Function.update_of_ne hp] at hr'
    exact h.waiting p hp r' hr'
  · rw [Function.update_of_ne hp]
    exact h.posted p hp
  · show v.delivered = (v.taken ++ [_]) ++ _
    rw [Function.update_self, h.delivered, hl, List.map_cons, List.append_assoc]
    rfl

end Stored

/-! ### Telegrams and answers -/

/-- A telegram has not been answered. -/
def Waits (v : Link) : Prop := v.eState = .waitForTelegram ∨ v.eState = .abccComLost

instance decidableWaits (v : Link) : Decidable (Waits v) := inferInstanceAs (Decidable (_ ∨ _))

/-- The telegrams of the module that are done with. -/
def processed (v : Link) : List (ℕ → UInt8) :=
  if v.eState = .processReceivedTelegram then v.got.dropLast else v.got

/-- Telegrams go out one after another, each as often as need be. -/
inductive Repeats {α : Type*} : List α → List α → Prop
  | nil : Repeats [] []
  | first {sent out : List α} (t : α) : Repeats sent out → Repeats (sent ++ [t]) (out ++ [t])
  | again {sent out : List α} {t : α} : Repeats sent out → sent.getLast? = some t →
      Repeats sent (out ++ [t])

/-- Where the exchange of telegrams stands. -/
structure Phase (v : Link) : Prop where
  length_eq : v.sent.length = v.got.length + if Waits v then 1 else 0
  work : tBit v.bWorkingControlReg = bit v.sent.length
  last : tBit v.bLastStatusReg = bit (processed v).length
  current : v.eState = .processReceivedTelegram → ∃ gs y, v.got = gs ++ [y] ∧
    v.bCurrentStatusReg = y 0 ∧ (mBit v.bCurrentStatusReg = true → v.pbReceptionBuffer = y)
  fresh : v.eState = .init ∨ v.eState = .initialHandshake → v.sent = []
  telegram : Waits v → v.sent.getLast? = some v.telegram
  sent_num : Numbered (fun t => tBit (t.headD 0)) v.sent
  got_num : Numbered (fun y => tBit (y 0)) v.got
  closed : ∀ t ∈ v.sent, Sealed t
  out : Repeats v.sent v.out

theorem processed_of_ne {v : Link} (h : v.eState ≠ .processReceivedTelegram) :
    processed v = v.got := if_neg h

theorem processed_of_concat {v : Link} (h : v.eState = .processReceivedTelegram)
    {gs : List (ℕ → UInt8)} {y : ℕ → UInt8} (hgot : v.got = gs ++ [y]) : processed v = gs := by
  rw [processed, if_pos h, hgot, List.dropLast_concat]

theorem not_waits {v : Link} {e : ApdrState} (h : v.eState = e) (hw : e ≠ .waitForTelegram)
    (hl : e ≠ .abccComLost) : ¬ Waits v := by
  rintro (hv | hv)
  · exact hw (h.symm.trans hv)
  · exact hl (h.symm.trans hv)

/-- What the end of a telegram leaves as it is. -/
theorem next_eq (v : Link) : v.next = { v with
    buf := v.next.buf
    psWriteMsgBuffer := v.next.psWriteMsgBuffer
    eState := v.next.eState
    bLastStatusReg := v.bCurrentStatusReg } := by
  unfold next turn
  split
  · rfl
  split
  · rfl
  split
  · rfl
  · rfl

namespace Phase

variable {v : Link}

theorem got_eq_nil (h : Phase v) (hs : v.eState = .init ∨ v.eState = .initialHandshake) :
    v.got = [] := by
  have hlen := h.length_eq
  rw [h.fresh hs, List.length_nil] at hlen
  exact List.length_eq_zero_iff.mp (by omega)

/-- The states change, and nothing is waited for before or after. -/
theorem goto (h : Phase v) {e : ApdrState} (hw : ¬ Waits v)
    (hp : v.eState ≠ .processReceivedTelegram) (he : e ≠ .waitForTelegram ∧ e ≠ .abccComLost ∧
      e ≠ .processReceivedTelegram ∧ e ≠ .init ∧ e ≠ .initialHandshake) :
    Phase { v with eState := e } := by
  have hw' : ¬ Waits { v with eState := e } := not_waits rfl he.1 he.2.1
  exact { h with
    length_eq := by
      rw [if_neg hw', h.length_eq, if_neg hw]
    last := by
      rw [processed_of_ne he.2.2.1, ← processed_of_ne hp]
      exact h.last
    current := fun hc => absurd hc he.2.2.1
    fresh := fun hf => absurd hf (not_or.mpr ⟨he.2.2.2.1, he.2.2.2.2⟩)
    telegram := fun hc => absurd hc hw' }

/-- The states change while a telegram is waited for. -/
theorem waiting (h : Phase v) (hw : Waits v) {e : ApdrState}
    (he : e = .waitForTelegram ∨ e = .abccComLost) : Phase { v with eState := e } := by
  have hw' : Waits { v with eState := e } := he
  have hnp : v.eState ≠ .processReceivedTelegram := by
    rcases hw with hs | hs <;> rw [hs] <;> decide
  have hnp' : e ≠ .processReceivedTelegram := by
    rcases he with rfl | rfl <;> decide
  exact { h with
    length_eq := by
      rw [if_pos hw', h.length_eq, if_pos hw]
    last := by
      rw [processed_of_ne hnp', ← processed_of_ne hnp]
      exact h.last
    current := fun hc => absurd hc hnp'
    fresh := by
      rcases he with rfl | rfl <;> rintro (hc | hc) <;> cases hc
    telegram := fun _ => h.telegram hw }

theorem launch (h : Phase v) {part : Option (List UInt8)} {t : List UInt8} (hw : ¬ Waits v)
    (hp : v.eState ≠ .processReceivedTelegram) (hnew : IsNew v.bWorkingControlReg part t) :
    Phase (v.launch t) := by
  have hlen := h.length_eq
  rw [if_neg hw, Nat.add_zero] at hlen
  have hbit : tBit (t.headD 0) = bit (v.sent.length + 1) := by
    rw [hnew.toggled, h.work, bit_succ]
  have hwaits : Waits (v.launch t) := .inl rfl
  have hnp : (v.launch t).eState ≠ .processReceivedTelegram := fun hc => by cases hc
  constructor
  · rw [if_pos hwaits]
    show (v.sent ++ [t]).length = v.got.length + 1
    rw [List.length_append, List.length_singleton, hlen]
  · show tBit (t.headD 0) = bit (v.sent ++ [t]).length
    rw [List.length_append, List.length_singleton, hbit]
  · rw [processed_of_ne hnp]
    show tBit v.bLastStatusReg = bit v.got.length
    rw [h.last, processed_of_ne hp]
  · exact fun hc => absurd hc hnp
  · rintro (hc | hc)
    · cases hc
    · cases hc
  · exact fun _ => List.getLast?_concat ..
  · exact h.sent_num.append hbit
  · exact h.got_num
  · intro t' ht'
    rcases List.mem_append.mp ht' with ht' | ht'
    · exact h.closed t' ht'
    · rw [List.mem_singleton.mp ht']
      exact hnew.closed
  · exact h.out.first t

theorem accept (h : Phase v) (hw : v.eState = .waitForTelegram)
    (ht : tBit v.bLastStatusReg ≠ tBit (v.pbReceptionBuffer 0)) : Phase v.accept := by
  have hlen := h.length_eq
  rw [if_pos (.inl hw)] at hlen
  have hlast := h.last
  rw [processed_of_ne (by rw [hw]; decide)] at hlast
  have hbit : tBit (v.pbReceptionBuffer 0) = bit (v.got.length + 1) := by
    rw [bit_succ, ← hlast]
    exact (Bool.eq_not_of_ne (Ne.symm ht))
  have hnw : ¬ Waits v.accept := not_waits (e := .processReceivedTelegram) rfl (by decide) (by decide)
  constructor
  · rw [if_neg hnw]
    show v.sent.length = (v.got ++ [v.pbReceptionBuffer]).length + 0
    rw [hlen, List.length_append, List.length_singleton]
  · exact h.work
  · rw [processed_of_concat (v := v.accept) rfl rfl]
    exact hlast
  · exact fun _ => ⟨v.got, _, rfl, rfl, fun _ => rfl⟩
  · rintro (hc | hc)
    · cases hc
    · cases hc
  · exact fun hc => absurd hc hnw
  · exact h.sent_num
  · exact h.got_num.append hbit
  · exact h.closed
  · exact h.out

theorem next (h : Phase v) (hp : v.eState = .processReceivedTelegram) : Phase v.next := by
  obtain ⟨gs, y, hgot, hcur, -⟩ := h.current hp
  have hstate := next_eState v
  have hlen := h.length_eq
  rw [if_neg (not_waits hp (by decide) (by decide))] at hlen
  have hnw : ¬ Waits v.next := by
    rcases hstate with hs | hs | hs
    · exact not_waits hs (by decide) (by decide)
    · exact not_waits hs (by decide) (by decide)
    · exact not_waits hs (by decide) (by decide)
  have hnp : v.next.eState ≠ .processReceivedTelegram := by
    rcases hstate with hs | hs | hs <;> rw [hs] <;> decide
  have hbit : tBit v.bCurrentStatusReg = bit v.got.length := by
    have hnum : tBit (y 0) = bit (gs.length + 1) :=
      h.got_num gs.length y (by rw [hgot, List.getElem?_concat_length])
    rw [hcur, hnum, hgot, List.length_append, List.length_singleton]
  rw [next_eq] at hnw hnp ⊢
  exact { h with
    length_eq := by rw [if_neg hnw]; exact hlen
    last := by rw [processed_of_ne hnp]; exact hbit
    current := fun hc => absurd hc hnp
    fresh := by
      rintro (hc | hc)
      · rcases hstate with hs | hs | hs
        · exact absurd (hs.symm.trans hc) (by decide)
        · exact absurd (hs.symm.trans hc) (by decide)
        · exact absurd (hs.symm.trans hc) (by decide)
      · rcases hstate with hs | hs | hs
        · exact absurd (hs.symm.trans hc) (by decide)
        · exact absurd (hs.symm.trans hc) (by decide)
        · exact absurd (hs.symm.trans hc) (by decide)
    telegram := fun hc => absurd hc hnw }

/-- **Step.** -/
theorem move (h : Phase v) {v' : Link} (hmove : Move v v') : Phase v' := by
  cases hmove with
  | stay => exact h
  | init hs =>
    have hsent := h.fresh (.inl hs)
    have hgot := h.got_eq_nil (.inl hs)
    exact { h with
      length_eq := by simp [hsent, hgot, Waits]
      work := by
        show tBit 0 = bit v.sent.length
        rw [hsent]
        decide
      last := by
        rw [processed_of_ne (fun hc => by cases hc)]
        show tBit 0 = bit v.got.length
        rw [hgot]
        decide
      current := fun hc => by cases hc
      fresh := fun _ => hsent
      telegram := fun hc => absurd hc (by simp [Waits]) }
  | ready hs =>
    exact h.goto (not_waits hs (by decide) (by decide)) (by rw [hs]; decide) (by decide)
  | fetch p r q hs =>
    have hgoto := h.goto (e := .sendTelegramWithMessage) (not_waits hs (by decide) (by decide))
      (by rw [hs]; decide) (by decide)
    exact { hgoto with }
  | nothing hs =>
    exact h.goto (not_waits hs (by decide) (by decide)) (by rw [hs]; decide) (by decide)
  | fragment r behind t hs hr hopen hnew =>
    have hnp : v.eState ≠ .processReceivedTelegram := by rw [hs]; decide
    exact { h.launch (not_waits hs (by decide) (by decide)) hnp hnew with }
  | plain t hs hnew =>
    exact h.launch (not_waits hs (by decide) (by decide)) (by rw [hs]; decide) hnew
  | accept hs _ ht _ => exact h.accept hs ht
  | ignore hs _ => exact { h with }
  | again hs =>
    exact { h.waiting (e := .waitForTelegram) hs (.inl rfl) with
      out := h.out.again (h.telegram hs) }
  | lost hs _ => exact h.waiting (.inl hs) (.inr rfl)
  | keep hs _ =>
    have hkeep : Phase v.keep := { h with }
    exact hkeep.next hs
  | none hs _ _ => exact h.next hs
  | deliver r q hs =>
    have hdeliver : Phase (v.deliver r q) := { h with }
    exact hdeliver.next hs

end Phase

end Start01
