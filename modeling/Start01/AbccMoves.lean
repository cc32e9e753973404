/-
Start01/AbccMoves.lean

The moves of the data link.  Whatever the timers, the process data and the state of the driver are,
a round of `APDR_RunDataLinkStateMachine` is one of the moves of `Move`, if the buffers are in order
and no telegram is longer than the transmission buffer (`pass_move`); and the loop returns, because
each round that goes on is nearer to one that returns (`rank`).
-/
import Start01.AbccLink

namespace Start01

open Scatter

namespace Link

/-! ### What changes -/

/-- A buffer is written. -/
def putBuf (v : Link) (r : BufRef) (b : BufMsg) : Link :=
  { v with buf := Function.update v.buf r b }

@[simp] theorem putBuf_buf (v : Link) (r : BufRef) (b : BufMsg) : (v.putBuf r b).buf r = b :=
  Function.update_self ..

@[simp] theorem putBuf_putBuf (v : Link) (r : BufRef) (b b' : BufMsg) :
    (v.putBuf r b).putBuf r b' = v.putBuf r b' := by
  simp only [putBuf, Function.update_idem]

/-- A message is taken from a queue. -/
def fetch (v : Link) (p : Pool) (r : BufRef) (q : OneQueueEntry BufRef) : Link :=
  { v with
    queue := Function.update v.queue p q
    psWriteMsgBuffer := some r
    begun := v.begun ++ [msgBytes (v.buf r).sMsg]
    eState := .sendTelegramWithMessage }

/-- A new telegram goes out. -/
def launch (v : Link) (t : List UInt8) : Link :=
  { v with
    bWorkingControlReg := t.headD 0
    eState := .waitForTelegram
    telegram := t
    out := v.out ++ [t]
    sent := v.sent ++ [t] }

/-- The telegram goes out again. -/
def again (v : Link) : Link :=
  { v with eState := .waitForTelegram, out := v.out ++ [v.telegram] }

/-- A telegram of the module is taken. -/
def accept (v : Link) : Link :=
  { v with
    fTelegramReceived := false
    bCurrentStatusReg := v.pbReceptionBuffer 0
    got := v.got ++ [v.pbReceptionBuffer]
    eState := .processReceivedTelegram }

/-- Its fragment is kept. -/
def keep (v : Link) : Link :=
  let n := v.iNbrRecFrags.toNat
  { v with
    abMessage := scatter v.abMessage (fun i => n * 16 + i) (fun i => v.pbReceptionBuffer (1 + i))
      (if n < 16 then 16 else if n = 16 then 7 else 0)
    iNbrRecFrags := v.iNbrRecFrags + 1 }

/-- The message in a buffer, after the one received has been copied there. -/
def message (v : Link) (old : ℕ → UInt8) : ℕ → UInt8 :=
  scatter old (fun i => i) v.abMessage (min (msgLength v.abMessage) 263)

/-- A message goes to the application. -/
def deliver (v : Link) (r : BufRef) (q : OneQueueEntry BufRef) : Link :=
  let m := v.message (v.buf r).sMsg
  { v.putBuf r { v.buf r with sMsg := m, fEntryUsed := true } with
    queue := Function.update v.queue .msgToAppl q
    delivered := v.delivered ++ [msgBytes m]
    iNbrRecFrags := 0 }

/-- Some of a message is left to be sent. -/
def Open (b : BufMsg) : Prop := b.bNbrOfFragments ≠ 0 ∧ b.bFragCounter < b.bNbrOfFragments

/-- All of a message has been sent. -/
def Done (b : BufMsg) : Prop := b.bNbrOfFragments ≠ 0 ∧ b.bFragCounter = b.bNbrOfFragments

instance (b : BufMsg) : Decidable (Open b) := inferInstanceAs (Decidable (_ ∧ _))

instance (b : BufMsg) : Decidable (Done b) := inferInstanceAs (Decidable (_ ∧ _))

/-- What is to be sent next. -/
def turn (v : Link) : Link :=
  match v.psWriteMsgBuffer with
  | none => { v with eState := .idle }
  | some r =>
    if Open (v.buf r) then { v with eState := .sendTelegramWithMessage }
    else if Done (v.buf r) then
      { v.putBuf r { v.buf r with bNbrOfFragments := 0, bFragCounter := 0, fEntryUsed := false } with
        psWriteMsgBuffer := none
        eState := .sendTelegramWithoutMessage }
    else { v with eState := .idle }

/-- A telegram of the module is done with. -/
def next (v : Link) : Link := { v.turn with bLastStatusReg := v.turn.bCurrentStatusReg }

/-- Where a telegram that is done with leads to. -/
theorem next_eState (v : Link) : v.next.eState = .idle ∨
    v.next.eState = .sendTelegramWithMessage ∨ v.next.eState = .sendTelegramWithoutMessage := by
  unfold next turn
  split
  · exact .inl rfl
  split
  · exact .inr (.inl rfl)
  split
  · exact .inr (.inr rfl)
  · exact .inl rfl

/-- The fragment that comes next. -/
def fragment (b : BufMsg) (behind : ℕ → UInt8) : List UInt8 :=
  chkBytes (fun j => if j < 263 then b.sMsg j else behind j) (b.bFragCounter.toNat * 16) 16

/-- A new telegram, after one with the register `reg`. -/
structure IsNew (reg : UInt8) (part : Option (List UInt8)) (t : List UInt8) : Prop where
  toggled : tBit (t.headD 0) = !tBit reg
  part_eq : sentPart t = part
  closed : Sealed t

/-- Where the loop may return. -/
def AtRest (v : Link) : Prop :=
  v.eState = .initialHandshake ∨ v.eState = .waitForTelegram ∨
    (v.eState = .processReceivedTelegram ∧ mBit v.bCurrentStatusReg = false ∧
      mBit v.bLastStatusReg = true)

/-- How many rounds may come. -/
def rank (v : Link) : ℕ :=
  match v.eState with
  | .init => 4
  | .initialHandshake => 3
  | .idle => 2
  | .sendTelegramWithMessage => 1
  | .sendTelegramWithoutMessage => 1
  | .waitForTelegram => if v.fTelegramReceived then 4 else 2
  | .processReceivedTelegram => 3
  | .abccComLost => 1

end Link

open Link

/-- A round of the loop. -/
inductive Move : Link → Link → Prop
  | stay {v : Link} : v.AtRest → Move v v
  | init {v : Link} : v.eState = .init → Move v { v with
      iNbrRecFrags := 0
      psWriteMsgBuffer := none
      bWorkingControlReg := 0
      bLastStatusReg := 0
      fTelegramReceived := false
      eState := .initialHandshake }
  | ready {v : Link} : v.eState = .initialHandshake → Move v { v with eState := .idle }
  | fetch {v : Link} (p : Pool) (r : BufRef) (q : OneQueueEntry BufRef) : v.eState = .idle →
      p ≠ .msgToAppl → (v.queue p).getFirst = some (some r, q) → Move v (v.fetch p r q)
  | nothing {v : Link} : v.eState = .idle →
      Move v { v with eState := .sendTelegramWithoutMessage }
  | fragment {v : Link} (r : BufRef) (behind : ℕ → UInt8) (t : List UInt8) :
      v.eState = .sendTelegramWithMessage → v.psWriteMsgBuffer = some r → Open (v.buf r) →
      IsNew v.bWorkingControlReg (some (fragment (v.buf r) behind)) t →
      Move v ((v.putBuf r
        { v.buf r with bFragCounter := (v.buf r).bFragCounter + 1 }).launch t)
  | plain {v : Link} (t : List UInt8) : v.eState = .sendTelegramWithoutMessage →
      IsNew v.bWorkingControlReg none t → Move v (v.launch t)
  | accept {v : Link} : v.eState = .waitForTelegram → v.fTelegramReceived = true →
      tBit v.bLastStatusReg ≠ tBit (v.pbReceptionBuffer 0) →
      (∃ n, telegramOk v.pbReceptionBuffer n = true) → Move v v.accept
  | ignore {v : Link} : v.eState = .waitForTelegram → v.fTelegramReceived = true →
      Move v { v with fTelegramReceived := false }
  | again {v : Link} : v.eState = .waitForTelegram ∨ v.eState = .abccComLost → Move v v.again
  | lost {v : Link} : v.eState = .waitForTelegram → v.fTelegramReceived = false →
      Move v { v with eState := .abccComLost }
  | keep {v : Link} : v.eState = .processReceivedTelegram → mBit v.bCurrentStatusReg = true →
      Move v v.keep.next
  | none {v : Link} : v.eState = .processReceivedTelegram → mBit v.bCurrentStatusReg = false →
      mBit v.bLastStatusReg = false → Move v v.next
  | deliver {v : Link} (r : BufRef) (q : OneQueueEntry BufRef) :
      v.eState = .processReceivedTelegram → mBit v.bCurrentStatusReg = false →
      mBit v.bLastStatusReg = true → r.pool = .msgToAppl → r.entry < r.pool.length →
      (v.buf r).fEntryUsed = false → (v.queue .msgToAppl).add r = some q →
      Move v (v.deliver r q).next

namespace Abcc

/-! ### Buffers and queues -/

/-- A buffer that is given out was not used. -/
theorem allocate_spec {s s' : Abcc} {pool : Pool} {r : BufRef}
    (h : s.allocate pool = some (r, s')) : r.pool = pool ∧ r.entry < r.pool.length ∧
      (s.buf r).fEntryUsed = false ∧ s' = s.use r := by
  rw [allocate, Option.map_eq_some_iff] at h
  obtain ⟨i, hi, heq⟩ := h
  obtain ⟨rfl, rfl⟩ := Prod.mk.inj heq
  have hfree := List.find?_some hi
  have hmem := List.mem_range.mp (List.mem_of_find?_eq_some hi)
  exact ⟨rfl, hmem, by simpa using hfree, rfl⟩

/-- A buffer that has been sent is given free. -/
theorem link_completeMsgTrans (s : Abcc) (r : BufRef) :
    (s.completeMsgTrans r).link
      = s.link.putBuf r { s.link.buf r with fEntryUsed := false } := by
  have hfree : ∀ t : Abcc, (t.free r).link
      = t.link.putBuf r { t.link.buf r with fEntryUsed := false } := fun _ => rfl
  rw [completeMsgTrans, hfree]
  split
  · rfl
  · rw [link_completeResponse]

/-! ### The states -/

/-- What is to be sent next. -/
theorem link_nextState (s : Abcc) : s.nextState.link = s.link.turn := by
  unfold nextState turn
  show _ = match s.apdr.psWriteMsgBuffer with
    | none => { s.link with eState := .idle }
    | some r => _
  rcases s.apdr.psWriteMsgBuffer with _ | r
  · rfl
  · show (if Open (s.buf r) then _ else if Done (s.buf r) then _ else _ : Abcc).link
      = if Open (s.buf r) then _ else if Done (s.buf r) then _ else _
    split
    · rfl
    split
    · show { (completeMsgTrans _ r).link with psWriteMsgBuffer := none } = _
      rw [link_completeMsgTrans]
      show { (s.link.putBuf r _).putBuf r { (s.link.putBuf r _).buf r with fEntryUsed := false } with
        psWriteMsgBuffer := none, eState := .sendTelegramWithoutMessage } = _
      rw [putBuf_buf, putBuf_putBuf]
      rfl
    · rfl

/-- A telegram is done with, whatever its process data was. -/
theorem link_finishTelegram (s : Abcc) : s.finishTelegram.link = s.link.next := by
  have hput := s.link_putProcessData (s.apdr.bCurrentStatusReg &&& 0x0F)
    (fun i => s.apdr.pbReceptionBuffer (17 + i)) s.apdr.iPdReadLength
  rw [← hput]
  unfold finishTelegram
  generalize s.putProcessData _ _ _ = s₁
  show { s₁.nextState.link with bLastStatusReg := s₁.nextState.link.bCurrentStatusReg } = _
  rw [link_nextState]
  rfl

/-- A fragment is kept. -/
theorem link_keepFragment (s : Abcc) : s.keepFragment.link = s.link.keep := by
  dsimp only [keepFragment, Link.keep]
  by_cases hlt : s.apdr.iNbrRecFrags.toNat < 16
  · rw [if_pos hlt, if_pos (show s.link.iNbrRecFrags.toNat < 16 from hlt)]
    rfl
  by_cases heq : s.apdr.iNbrRecFrags.toNat = 16
  · rw [if_neg hlt, if_pos heq, if_neg (show ¬ s.link.iNbrRecFrags.toNat < 16 from hlt),
      if_pos (show s.link.iNbrRecFrags.toNat = 16 from heq)]
    rfl
  · rw [if_neg hlt, if_neg heq, if_neg (show ¬ s.link.iNbrRecFrags.toNat < 16 from hlt),
      if_neg (show ¬ s.link.iNbrRecFrags.toNat = 16 from heq)]
    show { (s.call (.driverError .serialFragError)).link with
      iNbrRecFrags := s.apdr.iNbrRecFrags + 1 } = _
    rw [link_call _ rfl]
    rfl

/-- A message goes into the queue to the application. -/
theorem link_messageReceived (s : Abcc) {r : BufRef} {q : OneQueueEntry BufRef}
    (h : (s.queue .msgToAppl).add r = some q) :
    (s.messageReceived r).link = { s.link with
      queue := Function.update s.link.queue .msgToAppl q
      delivered := s.link.delivered ++ [msgBytes (s.link.buf r).sMsg] } := by
  have hnote := s.link_noteReceived (s.buf r).sMsg
  have hqueue : (s.noteReceived (s.buf r).sMsg).queue = s.queue := congrArg Link.queue hnote
  dsimp only [messageReceived]
  rw [hqueue, h]
  show { (s.noteReceived (s.buf r).sMsg).link with
    queue := Function.update (s.noteReceived (s.buf r).sMsg).link.queue .msgToAppl q
    delivered := (s.noteReceived (s.buf r).sMsg).link.delivered ++ [msgBytes (s.buf r).sMsg] } = _
  rw [hnote]
  rfl

/-- If there is a buffer for a message, there is room in the queue. -/
theorem passMessage_spec {s s₁ : Abcc} {ls : Pool → List BufRef} {held : List BufRef}
    (hq : Queued s.buf s.queue ls held) {r : BufRef} (h : s.allocate .msgToAppl = some (r, s₁)) :
    ∃ q s', (s.queue .msgToAppl).add r = some q ∧ s.passMessage = some s' ∧
      s'.link = s.link.deliver r q := by
  obtain ⟨hpool, hlt, hfree, rfl⟩ := allocate_spec h
  obtain ⟨q, hadd, -⟩ := (hq.allocate (b := { s.buf r with fEntryUsed := true }) hfree hlt rfl).add
  rw [hpool] at hadd
  refine ⟨q, _, hadd, congrArg _ h, ?_⟩
  have huse : (s.use r).link = s.link.putBuf r { s.buf r with fEntryUsed := true } := rfl
  have hcopy : ((s.use r).copyMessage r).link = (s.use r).link.putBuf r
      { (s.use r).link.buf r with sMsg := s.link.message ((s.use r).link.buf r).sMsg } := rfl
  show { (((s.use r).copyMessage r).messageReceived r).link with iNbrRecFrags := 0 } = _
  rw [link_messageReceived ((s.use r).copyMessage r) hadd, hcopy, huse, putBuf_buf, putBuf_putBuf,
    putBuf_buf]
  rfl

theorem link_goto (s : Abcc) (eState : ApdrState) :
    (s.goto eState).link = { s.link with eState := eState } := rfl

theorem link_noteRecovered (s : Abcc) : s.noteRecovered.link = s.link := by
  unfold noteRecovered
  split
  · rw [link_call _ rfl]
    rfl
  · rfl

theorem link_completeWrPdRemap (s : Abcc) : s.completeWrPdRemap.link = s.link := by
  unfold completeWrPdRemap
  split
  · rw [link_useNewWritePdMap]
    rfl
  · rfl

/-- A telegram is taken, whatever is reported. -/
theorem link_accept (s : Abcc) : s.accept.link = s.link.accept := by
  rw [accept, link_goto, link_completeWrPdRemap, link_noteRecovered]
  rfl

/-- What is sent is what is in the transmission buffer. -/
theorem link_sendTelegram (s : Abcc) :
    s.sendTelegram.link = { s.link with out := s.link.out ++ [s.link.telegram] } := by
  simp only [link, sendTelegram, call, sentOut_append]
  rfl

theorem link_retransmit (s : Abcc) :
    s.retransmit.link = { s.link with out := s.link.out ++ [s.link.telegram] } :=
  s.link_sendTelegram

end Abcc

/-- A round of the loop, and whether it returns. -/
structure Round (s s' : Abcc) (leaves : Bool) : Prop where
  move : Move s.link s'.link
  rest : leaves = true → s'.link.AtRest
  rank_lt : leaves = false → s'.link.rank < s.link.rank

namespace Abcc

/-- A round in APDR_SM_WAIT_FOR_TELEGRAM: a telegram is accepted or refused, or the timers run
out. -/
theorem smWaitForTelegram_round {s : Abcc} (h : s.link.eState = .waitForTelegram) :
    Round s s.smWaitForTelegram.1 s.smWaitForTelegram.2 := by
  have hrest : s.link.AtRest := .inr (.inl h)
  unfold smWaitForTelegram
  split
  · rename_i hrec
    have hrank : s.link.rank = 4 := by
      rw [Link.rank, h]
      exact if_pos hrec
    split
    · rename_i hnew
      refine ⟨?_, fun hl => (by cases hl), fun _ => ?_⟩
      · rw [link_accept]
        exact .accept h hrec ((tBit_ne_iff _ _).mp hnew.1) ⟨_, hnew.2⟩
      · rw [link_accept, hrank]
        exact Nat.lt_succ_self 3
    · refine ⟨.ignore h hrec, fun hl => (by cases hl), fun _ => ?_⟩
      have hafter : ({ s.link with fTelegramReceived := false } : Link).rank = 2 := by
        rw [Link.rank, h]
        rfl
      rw [hrank]
      exact hafter.trans_lt (by omega)
  split
  · have hlink : (retransmit (call { s with apdr := { s.apdr with fAbccTelegramTo := false } }
        (.reStartSerialComm s.apdr.iSerialLengthRead))).link = s.link.again := by
      rw [link_retransmit, link_call _ rfl, again, ← h]
      rfl
    refine ⟨?_, fun _ => ?_, fun hl => (by cases hl)⟩
    · exact hlink ▸ .again (.inl h)
    · exact hlink ▸ .inr (.inl rfl)
  split
  · rename_i hrec _ _
    have hrec : s.link.fTelegramReceived = false := Bool.eq_false_of_not_eq_true hrec
    refine ⟨.lost h hrec, fun hl => (by cases hl), fun _ => ?_⟩
    have hrank : s.link.rank = 2 := by
      rw [Link.rank, h, hrec]
      rfl
    rw [hrank]
    exact Nat.lt_succ_self 1
  · exact ⟨.stay hrest, fun _ => hrest, fun hl => (by cases hl)⟩

/-- Two rounds at most follow a telegram that is done with. -/
theorem rank_next (v : Link) : v.next.rank ≤ 2 := by
  rw [Link.rank]
  rcases v.next_eState with h | h | h
  · rw [h]
  · rw [h]
    exact Nat.le_succ 1
  · rw [h]
    exact Nat.le_succ 1

/-- A round in APDR_SM_PROCESS_RECEIVED_TELEGRAM. -/
theorem smProcessReceivedTelegram_round {s : Abcc} {ls : Pool → List BufRef} {held : List BufRef}
    (hq : Queued s.buf s.queue ls held) (h : s.link.eState = .processReceivedTelegram) :
    Round s s.smProcessReceivedTelegram.1 s.smProcessReceivedTelegram.2 := by
  have hrank : s.link.rank = 3 := by rw [Link.rank, h]
  have hround : ∀ {t : Abcc}, Move s.link t.link.next → Round s t.finishTelegram false := by
    intro t hmove
    refine ⟨t.link_finishTelegram.symm ▸ hmove, fun hl => (by cases hl), fun _ => ?_⟩
    rw [t.link_finishTelegram, hrank]
    exact (rank_next _).trans_lt (by omega)
  unfold smProcessReceivedTelegram
  split
  · rename_i hmsg
    exact hround (s.link_keepFragment.symm ▸ .keep h (decide_eq_true hmsg))
  · rename_i hmsg
    have hcur : mBit s.link.bCurrentStatusReg = false := decide_eq_false hmsg
    split
    · rename_i hlast
      exact hround (.none h hcur (decide_eq_false (not_not.mpr hlast)))
    · rename_i hlast
      have hlast : mBit s.link.bLastStatusReg = true := decide_eq_true hlast
      cases hbuf : s.allocate .msgToAppl with
      | none =>
        -- no buffer: the state waits for one
        have hnone : s.passMessage = none := by rw [passMessage, hbuf, Option.map_none]
        have hlink : (s.call (.driverError .outOfBuffers)).link = s.link := s.link_call rfl
        have hrest : s.link.AtRest := .inr (.inr ⟨h, hcur, hlast⟩)
        rw [hnone]
        exact ⟨hlink.symm ▸ .stay hrest, fun _ => hlink.symm ▸ hrest, fun hl => (by cases hl)⟩
      | some rs =>
        obtain ⟨r, s₁⟩ := rs
        obtain ⟨q, s', hadd, hpass, hlink⟩ := passMessage_spec hq hbuf
        obtain ⟨hpool, hlt, hfree, -⟩ := allocate_spec hbuf
        rw [hpass]
        exact hround (hlink.symm ▸ .deliver r q h hcur hlast hpool hlt hfree hadd)

/-- The loss is reported, and the telegram goes out again. -/
theorem link_smAbccComLost (s : Abcc) : s.smAbccComLost.link = s.link.again := by
  have hlost : s.noteLost.link = s.link := s.link_call rfl
  rw [smAbccComLost, link_goto, link_retransmit, hlost]
  rfl

/-- A message taken from a queue. -/
theorem sendFrom_move {s s' : Abcc} {ls : Pool → List BufRef} {held : List BufRef}
    (hq : Queued s.buf s.queue ls held) (h : s.link.eState = .idle) {type : SentMsgType}
    (hs : s.sendFrom type = some s') :
    Move s.link s'.link ∧ s'.link.eState = .sendTelegramWithMessage := by
  unfold sendFrom at hs
  extract_lets queue at hs
  have hne : queue ≠ .msgToAppl := by
    unfold queue
    cases type <;> decide
  rw [getNextMessage, Option.map_map, Option.map_eq_some_iff] at hs
  obtain ⟨⟨r, q⟩, hfirst, rfl⟩ := hs
  cases hls : ls queue with
  | nil =>
    rw [hq.getFirst_eq_none hls] at hfirst
    cases hfirst
  | cons r' l =>
    obtain ⟨q', hq', -⟩ := hq.getFirst hls
    obtain ⟨rfl, rfl⟩ := Prod.mk.inj (Option.some.inj (hfirst.symm.trans hq'))
    exact ⟨.fetch queue r' q h hne hq', rfl⟩

/-- Whichever queue is looked at first. -/
theorem smIdle_eq (s : Abcc) : ∃ (t : Abcc) (next : Option Abcc),
    t = { s with abccWdTimer := OneTimerEntry.reload 5000 } ∧
    (∀ s', next = some s' → ∃ type, t.sendFrom type = some s') ∧
    s.smIdle = next.getD (t.goto .sendTelegramWithoutMessage) := by
  refine ⟨_, _, rfl, ?_, rfl⟩
  intro s' hs'
  split at hs'
  · exact ⟨_, hs'⟩
  split at hs'
  · rw [Option.orElse_eq_some] at hs'
    rcases hs' with hs' | ⟨-, hs'⟩
    · exact ⟨_, hs'⟩
    · exact ⟨_, hs'⟩
  · rw [Option.orElse_eq_some] at hs'
    rcases hs' with hs' | ⟨-, hs'⟩
    · exact ⟨_, hs'⟩
    · exact ⟨_, hs'⟩

/-- A round in APDR_SM_IDLE. -/
theorem smIdle_round {s : Abcc} {ls : Pool → List BufRef} {held : List BufRef}
    (hq : Queued s.buf s.queue ls held) (h : s.link.eState = .idle) :
    Round s s.smIdle false := by
  have hrank : s.link.rank = 2 := by rw [Link.rank, h]
  obtain ⟨t, next, ht, hnext, heq⟩ := s.smIdle_eq
  have hlink : t.link = s.link := by
    rw [ht]
    rfl
  have hq : Queued t.buf t.queue ls held := by
    rw [ht]
    exact hq
  rw [heq]
  rw [← hlink] at h
  cases next with
  | none =>
    refine ⟨hlink ▸ .nothing h, fun hl => (by cases hl), fun _ => ?_⟩
    rw [hrank]
    exact Nat.lt_succ_self 1
  | some s' =>
    obtain ⟨type, htype⟩ := hnext s' rfl
    obtain ⟨hmove, hstate⟩ := sendFrom_move hq h htype
    refine ⟨hlink ▸ hmove, fun hl => (by cases hl), fun _ => ?_⟩
    rw [hrank, Link.rank, Option.getD_some, hstate]
    exact Nat.lt_succ_self 1

/-! ### New telegrams -/

/-- A fragment is copied to the transmission buffer. -/
theorem copyFragment_spec {s : Abcc} {r : BufRef} (behind : ℕ → UInt8)
    (hr : s.apdr.psWriteMsgBuffer = some r) (hopen : Open (s.buf r)) :
    ∃ s' t, s.copyFragment behind = some s' ∧
      s'.link = { s.link.putBuf r
        { s.buf r with bFragCounter := (s.buf r).bFragCounter + 1 } with telegram := t } ∧
      s'.apdr.iPdWriteLength = s.apdr.iPdWriteLength ∧
      s'.apdr.abTransmissionBuffer 0 = s.apdr.abTransmissionBuffer 0 ∧
      chkBytes s'.apdr.abTransmissionBuffer 1 16 = fragment (s.buf r) behind := by
  rw [copyFragment, hr]
  refine ⟨_, _, if_pos hopen, rfl, rfl, ?_, ?_⟩
  · exact scatter_of_forall_ne fun i _ => by omega
  · rw [fragment]
    refine (chkBytes_scatter _ _ 1 16).trans ?_
    exact chkBytes_congr fun j _ => by simp only [Nat.zero_add]

/-- The register is the first byte. -/
theorem putReg_front (s : Abcc) : s.putReg.apdr.abTransmissionBuffer 0 = s.apdr.bWorkingControlReg := by
  show Function.update s.apdr.abTransmissionBuffer 0 s.apdr.bWorkingControlReg 0 = _
  rw [Function.update_self]

/-- Bytes at the beginning of a telegram. -/
theorem isNew_of_bytes (reg : UInt8) (fMessage fFree : Bool) {part t : List UInt8} {m : ℕ → UInt8}
    (hclosed : Sealed t) (hbytes : ∀ i < 17, t[i]? = some (m i))
    (h0 : m 0 = newReg reg fMessage fFree) (hpart : chkBytes m 1 16 = part) :
    IsNew reg (if fMessage then some part else none) t ∧ t.headD 0 = m 0 := by
  have hhead : t.headD 0 = m 0 := by
    have hzero := hbytes 0 (by omega)
    cases t with
    | nil => cases hzero
    | cons x t => exact Option.some.inj hzero
  have hfrag : (t.drop 1).take 16 = part := by
    rw [← hpart]
    apply List.ext_getElem?
    intro i
    rw [List.getElem?_take]
    split
    · rename_i hi
      rw [List.getElem?_drop, getElem?_chkBytes m 1 hi, hbytes _ (by omega)]
    · exact (List.getElem?_eq_none (by rw [length_chkBytes]; omega)).symm
  refine ⟨⟨?_, ?_, hclosed⟩, hhead⟩
  · rw [hhead, h0, tBit_newReg]
  · rw [sentPart, hhead, h0, mBit_newReg, hfrag]

/-- A telegram goes out. -/
theorem link_postTelegram (s : Abcc) : s.postTelegram.link = { s.link with
    eState := .waitForTelegram
    out := s.link.out ++ [s.link.telegram]
    sent := s.link.sent ++ [s.link.telegram] } := by
  have hsend := s.link_sendTelegram
  show { s.sendTelegram.link with
    eState := .waitForTelegram, sent := s.link.sent ++ [s.link.telegram] } = _
  rw [hsend]

/-- A telegram without a message. -/
theorem sendNewTelegram_without {s : Abcc} (behind : ℕ → UInt8)
    (hpd : s.apdr.iPdWriteLength ≤ 256) :
    ∃ s' t, s.sendNewTelegram behind false = some s' ∧
      IsNew s.link.bWorkingControlReg none t ∧ s'.link = s.link.launch t := by
  obtain ⟨t, hlink, hclosed, hbytes⟩ := (s.clearMessage.setReg false).putReg.closeTelegram_spec hpd
  obtain ⟨hnew, hhead⟩ := isNew_of_bytes s.link.bWorkingControlReg false
    s.clearMessage.freeCmdSlots hclosed hbytes (putReg_front _) rfl
  refine ⟨(s.clearMessage.setReg false).putReg.closeTelegram.postTelegram, t, rfl, hnew, ?_⟩
  rw [link_postTelegram, hlink, launch, hhead, putReg_front]
  rfl

/-- A telegram with the next fragment of a message. -/
theorem sendNewTelegram_with {s : Abcc} {r : BufRef} (behind : ℕ → UInt8)
    (hpd : s.apdr.iPdWriteLength ≤ 256) (hr : s.link.psWriteMsgBuffer = some r)
    (hopen : Open (s.link.buf r)) :
    ∃ s' t, s.sendNewTelegram behind true = some s' ∧
      IsNew s.link.bWorkingControlReg (some (fragment (s.link.buf r) behind)) t ∧
      s'.link = (s.link.putBuf r
        { s.link.buf r with bFragCounter := (s.link.buf r).bFragCounter + 1 }).launch t := by
  obtain ⟨s₁, t₁, hcopy, hlink₁, hlength, hfront, hfrag⟩ :=
    copyFragment_spec (s := (s.setReg true).putReg) behind hr hopen
  obtain ⟨t, hlink, hclosed, hbytes⟩ := s₁.closeTelegram_spec (hlength ▸ hpd)
  obtain ⟨hnew, hhead⟩ := isNew_of_bytes s.link.bWorkingControlReg true s.freeCmdSlots
    hclosed hbytes (hfront.trans (putReg_front _)) hfrag
  refine ⟨_, t, congrArg (fun o => (o.map closeTelegram).map postTelegram) hcopy, hnew, ?_⟩
  rw [link_postTelegram, hlink, hlink₁, launch, hhead, hfront, putReg_front]
  rfl

/-! ### A round -/

/-- **Step.**  If the buffers are in order, every round is a move. -/
theorem pass_round {s : Abcc} {ls : Pool → List BufRef} {held : List BufRef} (behind : ℕ → UInt8)
    (hq : Queued s.buf s.queue ls held) (hpd : s.apdr.iPdWriteLength ≤ 256)
    (hopen : s.link.eState = .sendTelegramWithMessage →
      ∃ r, s.link.psWriteMsgBuffer = some r ∧ Open (s.link.buf r)) :
    ∃ s' leaves, s.pass behind = some (s', leaves) ∧ Round s s' leaves := by
  unfold pass
  cases hstate : s.apdr.eState with
  | init =>
    have hlink : s.smInit.link = { s.link with
        iNbrRecFrags := 0
        psWriteMsgBuffer := none
        bWorkingControlReg := 0
        bLastStatusReg := 0
        fTelegramReceived := false
        eState := .initialHandshake } := by
      simp only [link, smInit, sentOut_append]
      simp [sentOut]
    refine ⟨_, _, rfl, hlink ▸ .init hstate, fun hl => (by cases hl), fun _ => ?_⟩
    have hrank : s.link.rank = 4 := by rw [Link.rank, show s.link.eState = _ from hstate]
    rw [hrank, hlink]
    exact Nat.lt_succ_self 3
  | initialHandshake =>
    have hrank : s.link.rank = 3 := by rw [Link.rank, show s.link.eState = _ from hstate]
    dsimp only
    split
    · refine ⟨_, _, rfl, .ready hstate, fun hl => (by cases hl), fun _ => ?_⟩
      rw [hrank]
      exact Nat.lt_succ_self 2
    · exact ⟨_, _, rfl, .stay (.inl hstate), fun _ => .inl hstate, fun hl => (by cases hl)⟩
  | idle => exact ⟨_, _, rfl, smIdle_round hq hstate⟩
  | sendTelegramWithMessage =>
    obtain ⟨r, hr, hopen⟩ := hopen hstate
    obtain ⟨s', t, hs', hnew, hlink⟩ := sendNewTelegram_with behind hpd hr hopen
    refine ⟨s', true, congrArg (fun o => o.map fun s => (s, true)) hs', ?_, fun _ => ?_,
      fun hl => (by cases hl)⟩
    · exact hlink ▸ .fragment r behind t hstate hr hopen hnew
    · exact hlink ▸ .inr (.inl rfl)
  | sendTelegramWithoutMessage =>
    obtain ⟨s', t, hs', hnew, hlink⟩ := sendNewTelegram_without behind hpd
    refine ⟨s', true, congrArg (fun o => o.map fun s => (s, true)) hs', ?_, fun _ => ?_,
      fun hl => (by cases hl)⟩
    · exact hlink ▸ .plain t hstate hnew
    · exact hlink ▸ .inr (.inl rfl)
  | waitForTelegram => exact ⟨_, _, rfl, smWaitForTelegram_round hstate⟩
  | processReceivedTelegram => exact ⟨_, _, rfl, smProcessReceivedTelegram_round hq hstate⟩
  | abccComLost =>
    have hlink := s.link_smAbccComLost
    exact ⟨_, _, rfl, hlink ▸ .again (.inr hstate), fun _ => hlink ▸ .inr (.inl rfl),
      fun hl => (by cases hl)⟩

end Abcc

end Start01
