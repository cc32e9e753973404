/-
Start01/AbccRun.lean

Runs of the Anybus driver.  `APDR_RunDataLinkStateMachine` returns, and keeps the invariant of the
link; so does every other step (`Good.step`), and so do runs of them in any order (`Good.run`).

The application is asked for two things (`AbccOp.Ok`): its process data and the length in an
acknowledged remap command do not exceed ABP_MAX_PROCESS_DATA, and a command of the configuration
is built only when its buffer is free, which is so once the last one has been answered.
-/
import Start01.AbccMessages

namespace Start01

open Scatter Link Fragment Toggle Run

/-! ### The length of the process data -/

namespace Abcc

/-- The lengths that `iPdWriteLength` is taken from. -/
def pdLengths (s : Abcc) : List UInt16 :=
  [s.apdr.iPdWriteLength, s.aplink.iWritePdLength, s.aplink.iNewWritePdLength, s.appdWriteSize]

/-- None of them exceeds ABP_MAX_PROCESS_DATA. -/
def PdOk (s : Abcc) : Prop := ∀ n ∈ s.pdLengths, n ≤ 256

theorem PdOk.of_subset {s s' : Abcc} (h : s.PdOk) (hs : s'.pdLengths ⊆ s.pdLengths) : s'.PdOk :=
  fun n hn => h n (hs hn)

theorem PdOk.of_eq {s s' : Abcc} (h : s.PdOk) (hs : s'.pdLengths = s.pdLengths) : s'.PdOk :=
  fun n hn => h n (hs ▸ hn)

theorem pdLengths_changeDriverState (s : Abcc) (e : DriverState) :
    (s.changeDriverState e).pdLengths = s.pdLengths := by
  unfold changeDriverState
  split <;> rfl

theorem PdOk.useNewWritePdMap {s : Abcc} (h : s.PdOk) : s.useNewWritePdMap.PdOk :=
  h.of_subset fun n hn => by
    change n ∈ [s.aplink.iNewWritePdLength, s.aplink.iNewWritePdLength,
      s.aplink.iNewWritePdLength, s.appdWriteSize] at hn
    simp only [pdLengths, List.mem_cons, List.not_mem_nil] at hn ⊢
    tauto

theorem PdOk.noteReceived {s : Abcc} (h : s.PdOk) (m : ℕ → UInt8) : (s.noteReceived m).PdOk := by
  unfold Abcc.noteReceived
  split
  · exact h.of_eq rfl
  split
  · refine PdOk.of_eq (s := { s.setPdSize s.appdReadSize s.appdWriteSize with
      aplink := { s.aplink with
        iReadPdLength := s.appdReadSize
        iWritePdLength := s.appdWriteSize
        fNewWritePdAvailable := true } }) ?_ (pdLengths_changeDriverState _ _)
    refine h.of_subset fun n hn => ?_
    change n ∈ [s.appdWriteSize, s.appdWriteSize, s.aplink.iNewWritePdLength, s.appdWriteSize] at hn
    simp only [pdLengths, List.mem_cons, List.not_mem_nil] at hn ⊢
    tauto
  · exact h

theorem PdOk.completeResponse {s : Abcc} (h : s.PdOk) {m : ℕ → UInt8}
    (hm : isRemapAck m 0x13 = true → word m 8 ≤ 256) : (s.completeResponse m).PdOk := by
  have hanswered : s.answered.PdOk := h.of_eq rfl
  have huse : ∀ t : Abcc, t.PdOk → (t.useNewReadPdMap (word m 8)).PdOk := by
    intro t ht
    refine ht.of_subset fun n hn => ?_
    change n ∈ [t.aplink.iWritePdLength, t.aplink.iWritePdLength, t.aplink.iNewWritePdLength,
      t.appdWriteSize] at hn
    simp only [pdLengths, List.mem_cons, List.not_mem_nil] at hn ⊢
    tauto
  have hprepare : isRemapAck m 0x13 = true →
      (s.answered.prepareNewWritePdMap (word m 8)).PdOk := by
    intro hack n hn
    change n ∈ [s.apdr.iPdWriteLength, s.aplink.iWritePdLength, word m 8, s.appdWriteSize] at hn
    by_cases heq : n = word m 8
    · exact heq ▸ hm hack
    · refine h n ?_
      simp only [pdLengths, List.mem_cons, List.not_mem_nil] at hn ⊢
      tauto
  unfold Abcc.completeResponse
  split
  · split
    · exact huse _ (hprepare ‹_›)
    · exact hprepare ‹_›
  · split
    · exact huse _ hanswered
    · exact hanswered

theorem pdLengths_putProcessData (s : Abcc) (bAbccStatus : UInt8) (pbSourceData : ℕ → UInt8)
    (n : UInt16) : (s.putProcessData bAbccStatus pbSourceData n).pdLengths = s.pdLengths := by
  dsimp only [putProcessData]
  split
  · split <;> rfl
  split
  · split
    · split <;> rfl
    · rfl
  split <;> rfl

theorem pdLengths_getNewProcessData (s : Abcc) (at_ : ℕ) (n : UInt16) :
    (s.getNewProcessData at_ n).pdLengths = s.pdLengths := by
  unfold getNewProcessData
  split
  · rfl
  split
  · rfl
  split
  · rfl
  split <;> rfl

theorem pdLengths_sendNewTelegram {s s' : Abcc} {behind : ℕ → UInt8} {fMessage : Bool}
    (h : s.sendNewTelegram behind fMessage = some s') : s'.pdLengths = s.pdLengths := by
  have hclose : ∀ t : Abcc, t.closeTelegram.postTelegram.pdLengths = t.pdLengths :=
    fun t => t.pdLengths_getNewProcessData 17 t.apdr.iPdWriteLength
  unfold sendNewTelegram buildSerialTelegram at h
  cases fMessage with
  | false =>
    obtain rfl := Option.some.inj h
    exact hclose _
  | true =>
    rw [Option.map_map, Option.map_eq_some_iff] at h
    obtain ⟨t, ht, rfl⟩ := h
    refine (hclose t).trans ?_
    change (s.setReg true).putReg.copyFragment behind = some t at ht
    rw [copyFragment, Option.bind_eq_bind, Option.bind_eq_some_iff] at ht
    obtain ⟨r, -, ht⟩ := ht
    dsimp only at ht
    split at ht
    · obtain rfl := Option.some.inj ht
      rfl
    · obtain rfl := Option.some.inj ht
      rfl

theorem PdOk.nextState {s : Abcc} (h : s.PdOk)
    (hm : ∀ b, writing s.link = some b → RemapOk b.sMsg) : s.nextState.PdOk := by
  unfold Abcc.nextState
  split
  · exact h.of_eq rfl
  · rename_i r hr
    have hb : RemapOk (s.buf r).sMsg := hm _ (by
      show s.apdr.psWriteMsgBuffer.map s.buf = _
      rw [hr, Option.map_some])
    dsimp only
    split
    · exact h.of_eq rfl
    split
    · have hput : ((s.putFrag r 0 0).goto .sendTelegramWithoutMessage).PdOk := h.of_eq rfl
      have hsame : (((s.putFrag r 0 0).goto .sendTelegramWithoutMessage).buf r).sMsg
          = (s.buf r).sMsg := by
        show (Function.update s.buf r _ r).sMsg = _
        rw [Function.update_self]
      have hcomplete : (((s.putFrag r 0 0).goto .sendTelegramWithoutMessage).completeMsgTrans r).PdOk := by
        unfold completeMsgTrans
        dsimp only
        rw [hsame]
        cases hcmd : isCommand (s.buf r).sMsg with
        | true => exact hput.of_eq rfl
        | false => exact (hput.completeResponse (hb hcmd)).of_eq rfl
      exact hcomplete.of_eq rfl
    · exact h.of_eq rfl

theorem PdOk.finishTelegram {s : Abcc} (h : s.PdOk)
    (hm : ∀ b, writing s.link = some b → RemapOk b.sMsg) : s.finishTelegram.PdOk := by
  have hput := s.link_putProcessData (s.apdr.bCurrentStatusReg &&& 0x0F)
    (fun i => s.apdr.pbReceptionBuffer (17 + i)) s.apdr.iPdReadLength
  have hlengths := s.pdLengths_putProcessData (s.apdr.bCurrentStatusReg &&& 0x0F)
    (fun i => s.apdr.pbReceptionBuffer (17 + i)) s.apdr.iPdReadLength
  have hnext := (h.of_eq hlengths).nextState (by rw [hput]; exact hm)
  exact hnext.of_eq rfl

theorem PdOk.messageReceived {s : Abcc} (h : s.PdOk) (r : BufRef) : (s.messageReceived r).PdOk := by
  have hnote := h.noteReceived (s.buf r).sMsg
  unfold Abcc.messageReceived
  dsimp only
  split
  · exact hnote.of_eq rfl
  · exact hnote.of_eq rfl

/-! ### The loop -/

theorem open_of_inv {v : Link} (h : Inv v) (hs : v.eState = .sendTelegramWithMessage) :
    ∃ r, v.psWriteMsgBuffer = some r ∧ Open (v.buf r) := by
  obtain ⟨b, hb, hopen⟩ := (hs ▸ h.outgoing).isOpen
  obtain ⟨r, hr, rfl⟩ := Option.map_eq_some_iff.mp hb
  exact ⟨r, hr, hopen⟩

theorem PdOk.smWaitForTelegram {s : Abcc} (h : s.PdOk) : s.smWaitForTelegram.1.PdOk := by
  unfold Abcc.smWaitForTelegram
  split
  · split
    · have hrecovered : s.takeTelegram.noteRecovered.PdOk := by
        unfold noteRecovered
        split
        · exact h.of_eq rfl
        · exact h.of_eq rfl
      have hremap : s.takeTelegram.noteRecovered.completeWrPdRemap.PdOk := by
        unfold completeWrPdRemap
        split
        · exact PdOk.useNewWritePdMap (hrecovered.of_eq rfl)
        · exact hrecovered
      exact hremap.of_eq rfl
    · exact h.of_eq rfl
  split
  · exact h.of_eq rfl
  split
  · exact h.of_eq rfl
  · exact h

theorem PdOk.smProcessReceivedTelegram {s : Abcc} (h : s.PdOk) (hinv : Inv s.link) :
    s.smProcessReceivedTelegram.1.PdOk := by
  have hremap : ∀ b, writing s.link = some b → RemapOk b.sMsg :=
    fun b hb => (hb ▸ hinv.outgoing).remapOk
  obtain ⟨ls, hls⟩ := hinv.stored
  unfold Abcc.smProcessReceivedTelegram
  split
  · have hkeep : s.keepFragment.PdOk := by
      unfold keepFragment
      dsimp only
      split
      · exact h.of_eq rfl
      split
      · exact h.of_eq rfl
      · exact h.of_eq rfl
    exact hkeep.finishTelegram (by rw [link_keepFragment]; exact hremap)
  split
  · exact h.finishTelegram hremap
  · cases hbuf : s.allocate .msgToAppl with
    | none =>
      have hnone : s.passMessage = none := by rw [passMessage, hbuf, Option.map_none]
      rw [hnone]
      exact h.of_eq rfl
    | some rs =>
      obtain ⟨r, s₁⟩ := rs
      obtain ⟨q, s', hadd, hpass, hlink⟩ := passMessage_spec hls.queued hbuf
      obtain ⟨hpool, hlt, hfree, rfl⟩ := allocate_spec hbuf
      have hwriting := (Inv.deliver_parts hls hpool hlt hfree hadd).2
      have hpd : s'.PdOk := by
        rw [passMessage, hbuf] at hpass
        obtain rfl := Option.some.inj hpass
        have hcopy : ((s.use r).copyMessage r).PdOk := h.of_eq rfl
        exact (hcopy.messageReceived r).of_eq rfl
      rw [hpass]
      exact hpd.finishTelegram (by rw [hlink, hwriting]; exact hremap)

theorem PdOk.smIdle {s : Abcc} (h : s.PdOk) : s.smIdle.PdOk := by
  have hsend : ∀ (t : Abcc) (type : SentMsgType) (s' : Abcc), t.sendFrom type = some s' →
      s'.pdLengths = t.pdLengths := by
    intro t type s' hs'
    unfold sendFrom at hs'
    extract_lets queue at hs'
    rw [getNextMessage, Option.map_map, Option.map_eq_some_iff] at hs'
    obtain ⟨rq, -, rfl⟩ := hs'
    rfl
  obtain ⟨t, next, ht, hnext, heq⟩ := s.smIdle_eq
  have hpd : t.pdLengths = s.pdLengths := by
    rw [ht]
    rfl
  rw [heq]
  cases next with
  | none => exact h.of_eq hpd
  | some s' =>
    obtain ⟨type, htype⟩ := hnext s' rfl
    exact h.of_eq ((hsend t type s' htype).trans hpd)

/-- A round keeps the length of the process data. -/
theorem PdOk.pass {s s' : Abcc} {behind : ℕ → UInt8} {leaves : Bool} (h : s.PdOk)
    (hinv : Inv s.link) (hs : s.pass behind = some (s', leaves)) : s'.PdOk := by
  unfold Abcc.pass at hs
  split at hs
  · obtain ⟨rfl, -⟩ := Prod.mk.inj (Option.some.inj hs)
    intro n hn
    change n ∈ [0, s.aplink.iWritePdLength, s.aplink.iNewWritePdLength, s.appdWriteSize] at hn
    by_cases heq : n = 0
    · rw [heq]
      decide
    · refine h n ?_
      simp only [pdLengths, List.mem_cons, List.not_mem_nil] at hn ⊢
      tauto
  · split at hs
    · obtain ⟨rfl, -⟩ := Prod.mk.inj (Option.some.inj hs)
      exact h.of_eq rfl
    · obtain ⟨rfl, -⟩ := Prod.mk.inj (Option.some.inj hs)
      exact h
  · rw [Option.map_eq_some_iff] at hs
    obtain ⟨t, ht, heq⟩ := hs
    obtain ⟨rfl, -⟩ := Prod.mk.inj heq
    exact h.of_eq (pdLengths_sendNewTelegram ht)
  · rw [Option.map_eq_some_iff] at hs
    obtain ⟨t, ht, heq⟩ := hs
    obtain ⟨rfl, -⟩ := Prod.mk.inj heq
    exact h.of_eq (pdLengths_sendNewTelegram ht)
  · have heq : s.smWaitForTelegram.1 = s' := congrArg Prod.fst (Option.some.inj hs)
    exact heq ▸ h.smWaitForTelegram
  · have heq : s.smProcessReceivedTelegram.1 = s' := congrArg Prod.fst (Option.some.inj hs)
    exact heq ▸ h.smProcessReceivedTelegram hinv
  · obtain ⟨rfl, -⟩ := Prod.mk.inj (Option.some.inj hs)
    exact h.of_eq rfl
  · obtain ⟨rfl, -⟩ := Prod.mk.inj (Option.some.inj hs)
    exact h.smIdle

theorem rank_pos (v : Link) : 0 < v.rank := by
  unfold Link.rank
  split
  · exact Nat.succ_pos _
  · exact Nat.succ_pos _
  · exact Nat.succ_pos _
  · exact Nat.succ_pos _
  · exact Nat.succ_pos _
  · split
    · exact Nat.succ_pos _
    · exact Nat.succ_pos _
  · exact Nat.succ_pos _
  · exact Nat.succ_pos _

theorem rank_le (v : Link) : v.rank ≤ 4 := by
  unfold Link.rank
  split
  · exact Nat.le_refl _
  · exact Nat.le_succ _
  · omega
  · omega
  · omega
  · split
    · exact Nat.le_refl _
    · omega
  · omega
  · omega

/-- **The loop returns**, by moves that keep the invariant. -/
theorem runLoop_spec (behind : ℕ → UInt8) : ∀ (n : ℕ) {s : Abcc}, s.link.rank ≤ n → Inv s.link →
    s.PdOk → ∃ s', runLoop behind n s = some s' ∧ Relation.ReflTransGen Move s.link s'.link ∧
      Inv s'.link ∧ s'.PdOk ∧ s'.link.AtRest := by
  intro n
  induction n with
  | zero => exact fun {s} hrank _ _ => absurd (rank_pos s.link) (by omega)
  | succ n ih =>
    intro s hrank hinv hpd
    obtain ⟨ls, hls⟩ := hinv.stored
    obtain ⟨s₁, leaves, hpass, hround⟩ := pass_round behind hls.queued
      (hpd _ List.mem_cons_self) (open_of_inv hinv)
    have hinv₁ := hinv.move hround.move
    have hpd₁ := hpd.pass hinv hpass
    cases leaves with
    | true =>
      refine ⟨s₁, ?_, .single hround.move, hinv₁, hpd₁, hround.rest rfl⟩
      rw [runLoop, hpass]
      rfl
    | false =>
      have hlt := hround.rank_lt rfl
      obtain ⟨s', hrun, hmoves, hrest⟩ := ih (by omega) hinv₁ hpd₁
      refine ⟨s', ?_, .head hround.move hmoves, hrest⟩
      rw [runLoop, hpass]
      exact hrun

end Abcc

/-! ### The application -/

/-- The application has been served: it has posted messages and taken some. -/
structure Unmoved (held : List BufRef) (v v' : Link) : Prop where
  same : v' = { v with buf := v'.buf, queue := v'.queue, posted := v'.posted, taken := v'.taken }
  kept : ∀ r ∈ held, v'.buf r = v.buf r

namespace Unmoved

variable {v v' v'' : Link} {held : List BufRef}

theorem refl (held : List BufRef) (v : Link) : Unmoved held v v := ⟨rfl, fun _ _ => rfl⟩

theorem trans (h : Unmoved held v v') (h' : Unmoved held v' v'') : Unmoved held v v'' := by
  refine ⟨?_, fun r hr => (h'.kept r hr).trans (h.kept r hr)⟩
  rw [h'.same, h.same]

/-- The invariant is one of what the application does not change. -/
theorem inv (hs : Unmoved v.psWriteMsgBuffer.toList v v') (h : Inv v)
    (hstored : ∃ ls, Stored v' ls v.psWriteMsgBuffer.toList) : Inv v' := by
  have hw : v'.psWriteMsgBuffer = v.psWriteMsgBuffer := by rw [hs.same]
  have hwriting : writing v' = writing v := by
    rw [writing, hw, writing]
    cases hr : v.psWriteMsgBuffer with
    | none => rfl
    | some r =>
      rw [Option.map_some, Option.map_some,
        hs.kept r (by rw [hr]; exact List.mem_singleton_self r)]
  have hsame := hs.same
  refine ⟨hw ▸ hstored, ?_, ?_, ?_⟩
  · rw [hsame]
    exact { h.phase with }
  · rw [hwriting, hsame]
    exact h.outgoing
  · rw [hsame]
    exact { h.incoming with }

end Unmoved

namespace Abcc

/-- What `aplink_AddFragAndPostMsg` does: a command behind one that is active gives its buffer free,
and any other message is posted, for which there is room. -/
theorem addFragAndPostMsg_cases {s t : Abcc} {ls : Pool → List BufRef} {held : List BufRef}
    {r : BufRef} (h : Stored s.link ls (r :: held)) (hpool : poolOf (s.buf r).sMsg = r.pool)
    (hremap : RemapOk (s.buf r).sMsg)
    (ht : t = s.putFrag r (nbrOfFragments (s.buf r).sMsg) 0) :
    (isCommand (s.buf r).sMsg = true ∧ s.aplink.bNbrOfCmdsActiveToAbcc ≠ 0 ∧
        Stored t.link ls (r :: held) ∧ s.addFragAndPostMsg r = (t.free r, .outOfResources)) ∨
      (isCommand (s.buf r).sMsg = true → s.aplink.bNbrOfCmdsActiveToAbcc = 0) ∧
        ∃ q t', t'.link = { t.link with
            queue := Function.update t.queue r.pool q
            posted := t.posted ++ [msgBytes (s.buf r).sMsg] } ∧ t'.pdLengths = t.pdLengths ∧
          (∃ ls, Stored t'.link ls held) ∧ s.addFragAndPostMsg r = (t', .ok) := by
  have hbuf : t.buf r = { s.buf r with
      bNbrOfFragments := nbrOfFragments (s.buf r).sMsg, bFragCounter := 0 } := by
    rw [ht]
    exact Function.update_self ..
  have hmsg : (t.buf r).sMsg = (s.buf r).sMsg := by rw [hbuf]
  have hcount : t.aplink.bNbrOfCmdsActiveToAbcc = s.aplink.bNbrOfCmdsActiveToAbcc := by
    rw [ht]
    rfl
  have hput : Stored t.link ls (r :: held) := by
    rw [ht]
    exact h.putBuf rfl
  have hwait : Waiting (t.buf r) := by
    rw [hbuf]
    exact ⟨toNat_nbrOfFragments _, rfl, hremap⟩
  obtain ⟨q, hadd, hposted⟩ := hput.post hwait (show poolOf (t.buf r).sMsg = r.pool by rw [hmsg, hpool])
  have hpost : ∀ p, p = r.pool → t.post p r = some { t.putQueue p q with
      posted := t.posted ++ [msgBytes (t.buf r).sMsg] } := by
    rintro p rfl
    rw [post]
    exact congrArg _ hadd
  have hdone : ∀ {x : Abcc × AbccStatus} {t' : Abcc}, x = (t', .ok) → t'.link = { t.link with
      queue := Function.update t.queue r.pool q
      posted := t.posted ++ [msgBytes (s.buf r).sMsg] } → t'.pdLengths = t.pdLengths →
      ∃ q t', t'.link = { t.link with
          queue := Function.update t.queue r.pool q
          posted := t.posted ++ [msgBytes (s.buf r).sMsg] } ∧ t'.pdLengths = t.pdLengths ∧
        (∃ ls, Stored t'.link ls held) ∧ x = (t', .ok) := by
    intro x t' hx hlink hpd
    exact ⟨q, t', hlink, hpd, ⟨_, hlink ▸ hmsg ▸ hposted⟩, hx⟩
  unfold addFragAndPostMsg
  rw [← ht]
  dsimp only
  rw [hmsg, hcount]
  split
  · rename_i hcmd
    have hp : .cmdToAbcc = r.pool := by
      rw [← hpool, poolOf, if_pos hcmd]
    split
    · rename_i hmany
      refine .inl ⟨hcmd, ?_, hput, rfl⟩
      rintro hnone
      rw [hnone] at hmany
      exact absurd hmany (by decide)
    · rename_i hfew
      have hnone : s.aplink.bNbrOfCmdsActiveToAbcc = 0 := by
        rw [ge_iff_le, UInt8.le_iff_toNat_le] at hfew
        exact UInt8.toNat_inj.mp (Nat.lt_one_iff.mp (not_le.mp hfew))
      rw [hpost _ hp, hmsg]
      refine .inr ⟨fun _ => hnone, hdone rfl ?_ rfl⟩
      rw [← hp]
      rfl
  · rename_i hcmd
    have hp : .rspToAbcc = r.pool := by
      rw [← hpool, poolOf, if_neg hcmd]
    rw [hpost _ hp, hmsg]
    refine .inr ⟨fun hc => absurd hc hcmd, hdone rfl ?_ rfl⟩
    rw [← hp]
    rfl

/-- A message in a buffer is posted, or the buffer is given free. -/
theorem addFragAndPostMsg_spec {s : Abcc} {ls : Pool → List BufRef} {held : List BufRef}
    {r : BufRef} (h : Stored s.link ls (r :: held)) (hpool : poolOf (s.buf r).sMsg = r.pool)
    (hremap : RemapOk (s.buf r).sMsg) :
    (∃ ls, Stored (s.addFragAndPostMsg r).1.link ls held) ∧
      Unmoved held s.link (s.addFragAndPostMsg r).1.link ∧
      (s.addFragAndPostMsg r).1.pdLengths = s.pdLengths := by
  obtain ⟨t, ht⟩ : ∃ t : Abcc, t = s.putFrag r (nbrOfFragments (s.buf r).sMsg) 0 := ⟨_, rfl⟩
  have hpd : t.pdLengths = s.pdLengths := by
    rw [ht]
    rfl
  have hkept : ∀ b : BufMsg, Unmoved held s.link (s.link.putBuf r b) := by
    intro b
    refine ⟨rfl, fun r' hr' => Function.update_of_ne ?_ _ _⟩
    rintro rfl
    exact absurd (List.count_pos_iff.mpr hr')
      (by rw [h.queued.count_of_held.2]; exact Nat.lt_irrefl 0)
  rcases addFragAndPostMsg_cases h hpool hremap ht with
    ⟨-, -, hput, hfreed⟩ | ⟨-, q, t', hlink, hpd', hls, hdone⟩
  · rw [hfreed]
    refine ⟨⟨ls, hput.free rfl⟩, ?_, hpd⟩
    have hlink : (t.free r).link = s.link.putBuf r { t.buf r with fEntryUsed := false } := by
      show t.link.putBuf r _ = _
      rw [ht]
      show (s.link.putBuf r _).putBuf r _ = _
      rw [putBuf_putBuf]
    rw [hlink]
    exact hkept _
  · rw [hdone]
    refine ⟨hls, ?_, hpd'.trans hpd⟩
    have hunmoved : Unmoved held s.link t.link := by
      rw [ht]
      exact hkept _
    refine hunmoved.trans ?_
    rw [hlink]
    exact ⟨rfl, fun _ _ => rfl⟩

/-- What is copied from a message. -/
theorem copy_message (old m : ℕ → UInt8) :
    ∀ i < 8 + (m 5).toNat, scatter old (fun i => i) m (msgLength m) i = m i :=
  fun _ hi => scatter_apply (g := fun i => i) hi fun _ _ hj => hj

/-- A buffer is allocated, and a message is put into it. -/
theorem allocate_stored {s s₁ : Abcc} {ls : Pool → List BufRef} {held : List BufRef} {p : Pool}
    {r : BufRef} (h : Stored s.link ls held) (halloc : s.allocate p = some (r, s₁)) (m : ℕ → UInt8) :
    Stored (s₁.putMsg r m).link ls (r :: held) ∧ Unmoved held s.link (s₁.putMsg r m).link ∧
      (s₁.putMsg r m).pdLengths = s.pdLengths ∧ r.pool = p ∧ ((s₁.putMsg r m).buf r).sMsg = m := by
  obtain ⟨hpool, hlt, hfree, rfl⟩ := allocate_spec halloc
  have hlink : ((s.use r).putMsg r m).link
      = s.link.putBuf r { s.buf r with sMsg := m, fEntryUsed := true } := by
    show (s.link.putBuf r _).putBuf r { (s.link.putBuf r _).buf r with sMsg := m } = _
    rw [putBuf_putBuf, putBuf_buf]
  refine ⟨hlink ▸ h.allocate hfree hlt rfl, ?_, rfl, hpool, ?_⟩
  · rw [hlink]
    refine ⟨rfl, fun r' hr' => Function.update_of_ne ?_ _ _⟩
    rintro rfl
    rw [show (s.buf r').fEntryUsed = true from h.queued.used_of_held hr'] at hfree
    cases hfree
  · have hbuf := congrArg (fun v : Link => (v.buf r).sMsg) hlink
    simp only [putBuf_buf] at hbuf
    exact hbuf

/-- A message on its way to `aplink_AddFragAndPostMsg`, in the buffer `r`. -/
structure Copied (s : Abcc) (ls : Pool → List BufRef) (held : List BufRef) (m : ℕ → UInt8)
    (r : BufRef) (t : Abcc) : Prop where
  stored : Stored t.link ls (r :: held)
  unmoved : Unmoved held s.link t.link
  pdLengths : t.pdLengths = s.pdLengths
  bytes : msgBytes (t.buf r).sMsg = msgBytes m
  isCommand : isCommand (t.buf r).sMsg = isCommand m
  pool : poolOf (t.buf r).sMsg = r.pool
  remap : RemapOk (t.buf r).sMsg
  posted : t.posted = s.posted
  active : t.aplink.bNbrOfCmdsActiveToAbcc = s.aplink.bNbrOfCmdsActiveToAbcc

/-- With a buffer, in a state for messages, `ABCC_SendMessage` goes on with a copy of the message. -/
theorem sendMessage_of_allocate {s s₁ : Abcc} {ls : Pool → List BufRef} {held : List BufRef}
    (h : Stored s.link ls held) {m : ℕ → UInt8} (hm : RemapOk m)
    (hstate : s.aplink.eDriverState = .inRunNoPd ∨ s.aplink.eDriverState = .inRun) {r : BufRef}
    (halloc : s.allocate (poolOf m) = some (r, s₁)) :
    ∃ t, s.sendMessage m = t.addFragAndPostMsg r ∧ Copied s ls held m r t := by
  obtain ⟨hstored, hunmoved, hpd, hpool, hbuf⟩ := allocate_stored h halloc
    (scatter (s₁.buf r).sMsg (fun i => i) m (msgLength m))
  obtain ⟨-, -, -, hs₁⟩ := allocate_spec halloc
  have hcopy := copy_message (s₁.buf r).sMsg m
  obtain ⟨t, ht⟩ : ∃ t : Abcc, t = (s₁.noteRemap m).putMsg r
    (scatter (s₁.buf r).sMsg (fun i => i) m (msgLength m)) := ⟨_, rfl⟩
  have hlink : t.link
      = (s₁.putMsg r (scatter (s₁.buf r).sMsg (fun i => i) m (msgLength m))).link := by
    rw [ht]
    rfl
  have hmsg : (t.buf r).sMsg = scatter (s₁.buf r).sMsg (fun i => i) m (msgLength m) := by
    rw [ht]
    exact hbuf
  refine ⟨t, ?_, hlink ▸ hstored, hlink ▸ hunmoved, by rw [ht]; exact hpd, ?_, ?_, ?_, ?_, ?_, ?_⟩
  · rw [sendMessage, if_pos hstate, halloc, ht]
    rfl
  · rw [hmsg, msgBytes_congr hcopy]
  · have hbyte : (t.buf r).sMsg 4 = m 4 := by
      rw [hmsg]
      exact hcopy 4 (by omega)
    rw [Start01.isCommand, Start01.isCommand, bCmd, bCmd, hbyte]
  · rw [hmsg, ← kindOf_msgBytes, msgBytes_congr hcopy, kindOf_msgBytes, hpool]
  · rw [hmsg]
    exact hm.congr hcopy
  · rw [ht, hs₁]
    rfl
  · rw [ht, hs₁]
    rfl

theorem sendMessage_spec {s : Abcc} {ls : Pool → List BufRef} {held : List BufRef}
    (h : Stored s.link ls held) {m : ℕ → UInt8} (hm : RemapOk m) :
    (∃ ls, Stored (s.sendMessage m).1.link ls held) ∧
      Unmoved held s.link (s.sendMessage m).1.link ∧
      (s.sendMessage m).1.pdLengths = s.pdLengths := by
  have hsame : (∃ ls, Stored s.link ls held) ∧ Unmoved held s.link s.link ∧
      s.pdLengths = s.pdLengths := ⟨⟨ls, h⟩, .refl _ _, rfl⟩
  by_cases hstate : s.aplink.eDriverState = .inRunNoPd ∨ s.aplink.eDriverState = .inRun
  · cases halloc : s.allocate (poolOf m) with
    | none =>
      rw [sendMessage, if_pos hstate, halloc]
      exact hsame
    | some rs =>
      obtain ⟨r, s₁⟩ := rs
      obtain ⟨t, hsend, ht⟩ := sendMessage_of_allocate h hm hstate halloc
      obtain ⟨hls, hunmoved, hpd⟩ := addFragAndPostMsg_spec ht.stored ht.pool ht.remap
      rw [hsend]
      exact ⟨hls, ht.unmoved.trans hunmoved, hpd.trans ht.pdLengths⟩
  · rw [sendMessage, if_neg hstate]
    exact hsame

theorem foldl_sendMessage_spec {held : List BufRef} (ms : List (ℕ → UInt8)) :
    ∀ {s : Abcc} {ls : Pool → List BufRef}, Stored s.link ls held → (∀ m ∈ ms, RemapOk m) →
      (∃ ls, Stored (ms.foldl (fun s m => (s.sendMessage m).1) s).link ls held) ∧
        Unmoved held s.link (ms.foldl (fun s m => (s.sendMessage m).1) s).link ∧
        (ms.foldl (fun s m => (s.sendMessage m).1) s).pdLengths = s.pdLengths := by
  induction ms with
  | nil => exact fun {s ls} h _ => ⟨⟨ls, h⟩, .refl _ _, rfl⟩
  | cons m ms ih =>
    intro s ls h hm
    obtain ⟨hm, hms⟩ := List.forall_mem_cons.mp hm
    obtain ⟨⟨ls₁, h₁⟩, hserved₁, hpd₁⟩ := sendMessage_spec h hm
    obtain ⟨h₂, hserved₂, hpd₂⟩ := ih h₁ hms
    exact ⟨h₂, hserved₁.trans hserved₂, hpd₂.trans hpd₁⟩

/-- A buffer held for the time of a call is given free. -/
theorem free_spec {s : Abcc} {v : Link} {ls : Pool → List BufRef} {held : List BufRef} {r : BufRef}
    (h : Stored s.link ls (r :: held)) (hs : Unmoved held v s.link) :
    (∃ ls, Stored (s.free r).link ls held) ∧ Unmoved held v (s.free r).link := by
  refine ⟨⟨ls, h.free rfl⟩, hs.trans ⟨rfl, fun r' hr' => Function.update_of_ne ?_ _ _⟩⟩
  rintro rfl
  exact absurd (List.count_pos_iff.mpr hr')
    (by rw [h.queued.count_of_held.2]; exact Nat.lt_irrefl 0)

/-- A message is taken from the queue from the module. -/
theorem take_spec {s : Abcc} {ls : Pool → List BufRef} {held : List BufRef}
    (h : Stored s.link ls held) : (s.queue .msgToAppl).getFirst = none ∨
      ∃ r q ls', (s.queue .msgToAppl).getFirst = some (some r, q) ∧
        Stored { s.link with
          queue := Function.update s.link.queue .msgToAppl q
          taken := s.link.taken ++ [msgBytes (s.link.buf r).sMsg] } ls' (r :: held) := by
  cases hl : ls .msgToAppl with
  | nil => exact .inl (h.queued.getFirst_eq_none hl)
  | cons r l =>
    obtain ⟨q, hfirst, hstored⟩ := h.take hl
    exact .inr ⟨r, q, _, hfirst, hstored⟩

theorem link_takeMsg (s : Abcc) (r : BufRef) (q : OneQueueEntry BufRef) :
    (s.takeMsg r q).link = { s.link with
      queue := Function.update s.link.queue .msgToAppl q
      taken := s.link.taken ++ [msgBytes (s.link.buf r).sMsg] } := by
  dsimp only [takeMsg]
  rw [link_call _ rfl]
  split
  · rfl
  · rfl

theorem pdLengths_takeMsg (s : Abcc) (r : BufRef) (q : OneQueueEntry BufRef) :
    (s.takeMsg r q).pdLengths = s.pdLengths := by
  dsimp only [takeMsg]
  split
  · rfl
  · rfl

/-- A message is given to the application, which may send some, and its buffer given free. -/
theorem handleQueuedMsgsToAppl_spec {s : Abcc} {ls : Pool → List BufRef} {held : List BufRef}
    (h : Stored s.link ls held) {app : (ℕ → UInt8) → List (ℕ → UInt8)}
    (happ : ∀ m, ∀ m' ∈ app m, RemapOk m') :
    ∃ s', s.handleQueuedMsgsToAppl app = some s' ∧ (∃ ls, Stored s'.link ls held) ∧
      Unmoved held s.link s'.link ∧ s'.pdLengths = s.pdLengths := by
  unfold handleQueuedMsgsToAppl
  rcases take_spec h with hnone | ⟨r, q, ls', hfirst, hstored⟩
  · rw [hnone]
    exact ⟨s, rfl, ⟨ls, h⟩, .refl _ _, rfl⟩
  · rw [hfirst]
    dsimp only
    have hlink := s.link_takeMsg r q
    have hpd := s.pdLengths_takeMsg r q
    generalize hm : (s.buf r).sMsg = m
    generalize s.takeMsg r q = t at *
    have hserved : Unmoved (r :: held) s.link t.link := by
      rw [hlink]
      exact ⟨rfl, fun _ _ => rfl⟩
    obtain ⟨⟨ls₁, h₁⟩, hserved₁, hpd₁⟩ := foldl_sendMessage_spec (app m) (hlink ▸ hstored) (happ m)
    have hall := hserved.trans hserved₁
    obtain ⟨h₂, hserved₂⟩ := free_spec h₁
      ⟨hall.same, fun r' hr' => hall.kept r' (List.mem_cons_of_mem r hr')⟩
    exact ⟨_, rfl, h₂, hserved₂, hpd₁.trans hpd⟩

theorem cfgTake_spec {s : Abcc} {ls : Pool → List BufRef} {held : List BufRef}
    (h : Stored s.link ls held) :
    ∃ s', s.cfgTake = some s' ∧ (∃ ls, Stored s'.link ls held) ∧ Unmoved held s.link s'.link ∧
      s'.pdLengths = s.pdLengths := by
  unfold cfgTake
  rcases take_spec h with hnone | ⟨r, q, ls', hfirst, hstored⟩
  · rw [hnone]
    exact ⟨s, rfl, ⟨ls, h⟩, .refl _ _, rfl⟩
  · rw [hfirst]
    obtain ⟨t, ht⟩ : ∃ t : Abcc, t = { s.putQueue .msgToAppl q with
        aplink := { s.aplink with
          bNbrOfCmdsActiveToAbcc := s.aplink.bNbrOfCmdsActiveToAbcc - 1 }
        taken := s.taken ++ [msgBytes (s.buf r).sMsg] } := ⟨_, rfl⟩
    have hlink : t.link = { s.link with
        queue := Function.update s.link.queue .msgToAppl q
        taken := s.link.taken ++ [msgBytes (s.link.buf r).sMsg] } := by
      rw [ht]
      rfl
    have hserved : Unmoved held s.link t.link := by
      rw [hlink]
      exact ⟨rfl, fun _ _ => rfl⟩
    obtain ⟨h₂, hserved₂⟩ := free_spec (hlink ▸ hstored) hserved
    refine ⟨t.free r, by rw [ht], h₂, hserved₂, ?_⟩
    rw [ht]
    rfl

theorem cfgSend_spec {s : Abcc} {ls : Pool → List BufRef} {held : List BufRef}
    (h : Stored s.link ls held) {fill : (ℕ → UInt8) → ℕ → UInt8}
    (hfill : ∀ m, isCommand (fill m) = true) (hfree : (s.allocate .cmdToAbcc).isSome = true) :
    ∃ s', s.cfgSend fill = some s' ∧ (∃ ls, Stored s'.link ls held) ∧ Unmoved held s.link s'.link ∧
      s'.pdLengths = s.pdLengths := by
  obtain ⟨⟨r, s₁⟩, halloc⟩ := Option.isSome_iff_exists.mp hfree
  obtain ⟨hstored, hserved, hpd, hpool, hbuf⟩ :=
    allocate_stored h halloc (fill (s₁.buf r).sMsg)
  obtain ⟨h₂, hserved₂, hpd₂⟩ := addFragAndPostMsg_spec hstored
    (by rw [hbuf, poolOf, if_pos (hfill _), hpool])
    (by
      rw [hbuf]
      intro hcmd
      rw [hfill] at hcmd
      cases hcmd)
  refine ⟨_, ?_, h₂, hserved.trans hserved₂, hpd₂.trans hpd⟩
  rw [cfgSend, halloc]
  rfl

end Abcc

/-! ### Steps -/

/-- What the application is asked for. -/
def AbccOp.Ok (s : Abcc) : AbccOp → Prop
  | .handle app => ∀ m, ∀ m' ∈ app m, RemapOk m'
  | .send psMessage => RemapOk psMessage
  | .cfgSend fill => (∀ m, isCommand (fill m) = true) ∧ (s.allocate .cmdToAbcc).isSome = true
  | .pdSize _ iWriteSize => iWriteSize ≤ 256
  | _ => True

/-- What a step does to the link. -/
def AbccOp.Effect (s s' : Abcc) : AbccOp → Prop
  | .run _ => Relation.ReflTransGen Move s.link s'.link
  | .received pbNewData => s' = s.serialTelegramReceived pbNewData
  | _ => Unmoved s.link.psWriteMsgBuffer.toList s.link s'.link

/-- What holds of the driver between two steps. -/
structure Good (s : Abcc) : Prop where
  inv : Inv s.link
  pd : s.PdOk
  rest : s.link.eState = .processReceivedTelegram →
    mBit s.link.bCurrentStatusReg = false ∧ mBit s.link.bLastStatusReg = true

namespace Good

open Abcc

variable {s s' : Abcc}

/-- The application has been served. -/
theorem served (h : Good s) (hstored : ∃ ls, Stored s'.link ls s.link.psWriteMsgBuffer.toList)
    (hs : Unmoved s.link.psWriteMsgBuffer.toList s.link s'.link)
    (hpd : s'.pdLengths = s.pdLengths) : Good s' := by
  refine ⟨hs.inv h.inv hstored, h.pd.of_eq hpd, ?_⟩
  rw [hs.same]
  exact h.rest

/-- The link is as before. -/
theorem of_link (h : Good s) (hlink : s'.link = s.link) (hpd : s'.PdOk) : Good s' :=
  ⟨hlink ▸ h.inv, hpd, hlink ▸ h.rest⟩

theorem received (h : Good s) (pbNewData : ℕ → UInt8) :
    Good (s.serialTelegramReceived pbNewData) := by
  obtain ⟨⟨ls, hls⟩, hphase, hout, hin⟩ := h.inv
  refine ⟨⟨⟨ls, { hls with }⟩, ?_, hout, { hin with }⟩, h.pd.of_eq rfl, h.rest⟩
  exact { hphase with
    current := by
      intro hs
      obtain ⟨gs, y, hgot, hcur, -⟩ := hphase.current hs
      -- the telegram that is looked at had no fragment
      refine ⟨gs, y, hgot, hcur, fun hmsg => ?_⟩
      have hmsg : mBit s.link.bCurrentStatusReg = true := hmsg
      rw [(h.rest hs).1] at hmsg
      cases hmsg }

/-- A run of the loop. -/
theorem run (h : Good s) (behind : ℕ → UInt8) : ∃ s', s.runDataLinkStateMachine behind = some s' ∧
    Relation.ReflTransGen Move s.link s'.link ∧ Good s' := by
  obtain ⟨s', hrun, hmoves, hinv, hpd, hrest⟩ := runLoop_spec behind 5
    ((rank_le s.link).trans (by omega)) h.inv h.pd
  refine ⟨s', hrun, hmoves, hinv, hpd, fun hs => ?_⟩
  rcases hrest with hr | hr | ⟨-, hr⟩
  · rw [hr] at hs
    cases hs
  · rw [hr] at hs
    cases hs
  · exact hr

/-- **Step.**  Every step returns, keeps the invariant, and does to the link what it may. -/
theorem step (h : Good s) {op : AbccOp} (hok : op.Ok s) :
    ∃ s', s.step op = some s' ∧ Good s' ∧ op.Effect s s' := by
  obtain ⟨ls, hls⟩ := h.inv.stored
  have hquiet : ∀ {t : Abcc}, t.link = s.link → t.PdOk →
      Good t ∧ Unmoved s.link.psWriteMsgBuffer.toList s.link t.link :=
    fun hlink hpd => ⟨h.of_link hlink hpd, hlink ▸ .refl _ _⟩
  cases op with
  | run behind =>
    obtain ⟨s', hrun, hmoves, hgood⟩ := h.run behind
    exact ⟨s', hrun, hgood, hmoves⟩
  | handle app =>
    obtain ⟨s', hs', hstored, hserved, hpd⟩ := handleQueuedMsgsToAppl_spec hls hok
    exact ⟨s', hs', h.served hstored hserved hpd, hserved⟩
  | send psMessage =>
    obtain ⟨hstored, hserved, hpd⟩ := sendMessage_spec hls hok
    exact ⟨_, rfl, h.served hstored hserved hpd, hserved⟩
  | cfgSend fill =>
    obtain ⟨s', hs', hstored, hserved, hpd⟩ := cfgSend_spec hls hok.1 hok.2
    exact ⟨s', hs', h.served hstored hserved hpd, hserved⟩
  | cfgTake =>
    obtain ⟨s', hs', hstored, hserved, hpd⟩ := cfgTake_spec hls
    exact ⟨s', hs', h.served hstored hserved hpd, hserved⟩
  | change e =>
    exact ⟨_, rfl, hquiet (s.link_changeDriverState e)
      (h.pd.of_eq (s.pdLengths_changeDriverState e))⟩
  | tick => exact ⟨_, rfl, hquiet rfl (h.pd.of_eq rfl)⟩
  | received pbNewData => exact ⟨_, rfl, h.received pbNewData, rfl⟩
  | writeProcessData pbData =>
    refine ⟨_, rfl, hquiet (s.link_writeProcessData pbData) (h.pd.of_eq ?_)⟩
    dsimp only [writeProcessData]
    split
    · rfl
    · rfl
  | newWritePd => exact ⟨_, rfl, hquiet rfl (h.pd.of_eq rfl)⟩
  | pdSize iReadSize iWriteSize =>
    refine ⟨_, rfl, hquiet rfl fun n hn => ?_⟩
    change n ∈ [s.apdr.iPdWriteLength, s.aplink.iWritePdLength, s.aplink.iNewWritePdLength,
      iWriteSize] at hn
    by_cases heq : n = iWriteSize
    · exact heq ▸ hok
    · refine h.pd n ?_
      simp only [pdLengths, List.mem_cons, List.not_mem_nil] at hn ⊢
      tauto

/-- **Run.** -/
theorem exec {ops : List AbccOp} (h : Good s) (hok : Meets Abcc.step (fun s op => op.Ok s) s ops) :
    ∃ s', Run.exec Abcc.step s ops = some s' ∧ Good s' := by
  refine exec_total (fun s op hs hop => ?_) h hok
  obtain ⟨s', hs', hgood, -⟩ := hs.step hop
  exact ⟨s', hs', hgood⟩

theorem boot (buf : BufRef → ℕ → UInt8) : Good (boot buf) := by
  have hbit : tBit 0 = bit 0 := by decide
  have hmsg : mBit 0 = false := by decide
  refine ⟨⟨⟨fun _ => [], ?_⟩, ?_, .between (fun hc => by cases hc) rfl .nil, ?_⟩, ?_, ?_⟩
  · constructor
    · exact ⟨fun p => OneQueueEntry.holds_create _ (by cases p <;> decide), fun r => rfl,
        fun p r hr => absurd hr List.not_mem_nil, fun r hr => (by cases hr)⟩
    · exact fun p _ r hr => absurd hr List.not_mem_nil
    · exact fun p _ => rfl
    · rfl
  · constructor
    · rfl
    · exact hbit
    · exact hbit
    · exact fun hc => (by cases hc)
    · exact fun _ => rfl
    · rintro (hc | hc)
      · cases hc
      · cases hc
    · exact fun i z hz => (by cases hz)
    · exact fun i z hz => (by cases hz)
    · exact fun t ht => absurd ht List.not_mem_nil
    · exact .nil
  · exact ⟨⟨fun hc => absurd (hmsg.symm.trans hc) (by decide), fun hc => absurd rfl hc⟩,
      ⟨0, .nil _⟩, .nil⟩
  · intro n hn
    change n ∈ [(0 : UInt16), 0, 0, 0] at hn
    have hzero : n = 0 := by simpa using hn
    rw [hzero]
    decide
  · exact fun hc => (by cases hc)

end Good

/-! ### What the runs give -/

section Runs

open Abcc

/-- Steps in any order, each of which the application may take. -/
def MayRun (buf : BufRef → ℕ → UInt8) (ops : List AbccOp) : Prop :=
  Meets Abcc.step (fun s op => op.Ok s) (boot buf) ops

/-- The initial handshake, and a telegram. -/
def firstTelegram : List AbccOp := .run (fun _ => 0) :: (List.replicate 150 .tick ++ [.run fun _ => 0])

theorem firstTelegram_ok (buf : BufRef → ℕ → UInt8) : MayRun buf firstTelegram := by
  refine meets_of_forall fun op hop s => ?_
  simp only [firstTelegram, List.mem_cons, List.mem_append, List.mem_replicate,
    List.not_mem_nil, or_false] at hop
  rcases hop with rfl | ⟨-, rfl⟩ | rfl <;> trivial

/-- A telegram of the module: the register, a fragment, and their check. -/
def moduleTelegram (bytes : List UInt8) : ℕ → UInt8 :=
  let crc := crcCrc16 (fun i => bytes.getD i 0) 17
  fun i => if i = 17 then (crc >>> 8).toUInt8 else if i = 18 then crc.toUInt8 else bytes.getD i 0

/-- A command of the application, of two fragments. -/
def longCommand : ℕ → UInt8 := fun i =>
  [7, 1, 1, 0, 0x41, 12, 5, 0, 1, 2, 3, 4, 5, 6, 7, 8, 9, 10, 11, 12].getD i 0

/-- A command of the module, of two fragments. -/
def moduleCommand : List UInt8 := [9, 254, 1, 0, 0x41, 10, 5, 0, 1, 2, 3, 4, 5, 6, 7, 8, 9, 10]

/-- An answer to it. -/
def shortResponse : ℕ → UInt8 := fun i => [9, 254, 1, 0, 0x01, 0, 5, 0].getD i 0

/-- One command each way, and the response to the module's, in four answers of the module. -/
def exchange : List AbccOp :=
  firstTelegram ++ [.change .inRunNoPd, .send longCommand,
    .received (moduleTelegram [0xA0]), .run fun _ => 0,
    .received (moduleTelegram (0x60 :: moduleCommand.take 16)), .run fun _ => 0,
    .received (moduleTelegram (0xE0 :: moduleCommand.drop 16)), .run fun _ => 0,
    .received (moduleTelegram [0x20]), .run fun _ => 0,
    .handle fun _ => [shortResponse]]

theorem exchange_ok (buf : BufRef → ℕ → UInt8) : MayRun buf exchange := by
  refine meets_of_forall fun op hop s => ?_
  simp only [exchange, firstTelegram, List.mem_cons, List.mem_append, List.mem_replicate,
    List.not_mem_nil, or_false] at hop
  rcases hop with (rfl | ⟨-, rfl⟩ | rfl) | rfl | rfl | rfl | rfl | rfl | rfl | rfl | rfl | rfl |
    rfl | rfl
  case inr.inr.inl => exact fun hcmd => absurd hcmd (by decide)
  case inr.inr.inr.inr.inr.inr.inr.inr.inr.inr.inr =>
    intro _ m' hm'
    rw [List.mem_singleton.mp hm']
    exact fun _ hack => absurd hack (by decide)
  all_goals trivial

/-- What has passed then: the command went out in three telegrams between two others, and the
response waits. -/
theorem exchange_passed : ∃ s, exec Abcc.step (boot fun _ _ => 0) exchange = some s ∧
    ((s.sent.length = 5 ∧ s.got.length = 4) ∧
      s.begun = [msgBytes longCommand] ∧ s.posted = [msgBytes longCommand, msgBytes shortResponse]) ∧
    (reassemble (s.sent.map sentPart)).done = [msgBytes longCommand ++ List.replicate 12 0] ∧
    (s.delivered = [moduleCommand] ∧ s.taken = [moduleCommand]) ∧
    (s.buf ⟨.rspToAbcc, 0⟩).fEntryUsed = true ∧
      (s.queue .rspToAbcc).contents = [some ⟨.rspToAbcc, 0⟩] := by
  have hleft : (exec Abcc.step (boot fun _ _ => 0) exchange).map (fun s =>
      ((s.sent.length, s.got.length), s.begun, s.posted))
        = some ((5, 4), [msgBytes longCommand], [msgBytes longCommand, msgBytes shortResponse]) := by
    decide +kernel
  have hright : (exec Abcc.step (boot fun _ _ => 0) exchange).map (fun s =>
      ((reassemble (s.sent.map sentPart)).done, s.delivered, s.taken))
        = some ([msgBytes longCommand ++ List.replicate 12 0], [moduleCommand], [moduleCommand]) := by
    decide +kernel
  have hwaits : (exec Abcc.step (boot fun _ _ => 0) exchange).map (fun s =>
      ((s.buf ⟨.rspToAbcc, 0⟩).fEntryUsed, (s.queue .rspToAbcc).contents))
        = some (true, [some ⟨.rspToAbcc, 0⟩]) := by
    decide +kernel
  obtain ⟨s, hs, hs'⟩ := Option.map_eq_some_iff.mp hleft
  rw [hs] at hright hwaits
  simp only [Option.map_some, Option.some.injEq, Prod.mk.injEq] at hs' hright hwaits
  exact ⟨s, hs, hs', hright.1, hright.2, hwaits⟩

/-- Telegrams and answers alternate. -/
structure StopAndWait (s : Abcc) : Prop where
  /-- At most one telegram is not answered. -/
  inTurn : s.sent.length = s.got.length ∨ s.sent.length = s.got.length + 1
  sentBit : ∀ i t, s.sent[i]? = some t → tBit (t.headD 0) = bit (i + 1)
  gotBit : ∀ i y, s.got[i]? = some y → tBit (y 0) = bit (i + 1)
  /-- What goes out are the telegrams, one after another, each of them once or more. -/
  repeated : Repeats s.sent (sentOut s.calls)
  closed : ∀ t ∈ s.sent, Sealed t

theorem Good.stopAndWait {s : Abcc} (hgood : Good s) : StopAndWait s := by
  have hphase := hgood.inv.phase
  refine ⟨?_, hphase.sent_num, hphase.got_num, hphase.out, hphase.closed⟩
  have hlen : s.sent.length = s.got.length + _ := hphase.length_eq
  split at hlen
  · exact .inr hlen
  · exact .inl hlen

/-- **Stop and wait.**  Every run returns: no null pointer is followed, and the loop ends each
time; and in every state reached, telegrams and answers alternate. -/
theorem abcc_stop_and_wait (buf : BufRef → ℕ → UInt8) (ops : List AbccOp) (hok : MayRun buf ops) :
    ∃ s, exec Abcc.step (boot buf) ops = some s ∧ StopAndWait s := by
  obtain ⟨s, hs, hgood⟩ := (Good.boot buf).exec hok
  exact ⟨s, hs, hgood.stopAndWait⟩

theorem abcc_exchange : ∃ s, exec Abcc.step (boot fun _ _ => 0) exchange = some s ∧
    StopAndWait s ∧ s.sent.length = 5 ∧ s.got.length = 4 := by
  obtain ⟨s, hs, ⟨hlengths, -⟩, -⟩ := exchange_passed
  obtain ⟨s', hs', hwait⟩ := abcc_stop_and_wait _ exchange (exchange_ok fun _ _ => 0)
  obtain rfl := Option.some.inj (hs'.symm.trans hs)
  exact ⟨s', hs, hwait, hlengths⟩

/-- The messages of the application go to the module. -/
structure MessagesToModule (s : Abcc) : Prop where
  /-- A receiver that puts the telegrams together has the messages taken from the queues, each with
  less than a fragment behind its end, but for the one that is being sent. -/
  carried : ∃ ms, (s.begun = ms ∨ ∃ m, s.begun = ms ++ [m]) ∧
    List.Forall₂ (Carries 16) (reassemble (s.sent.map sentPart)).done ms
  /-- Commands are taken in the order in which they are posted, and so are responses; one waits at
  most. -/
  inOrder : ∀ p, p ≠ .msgToAppl → ∃ wait, wait.length ≤ 1 ∧
    s.posted.filter (kindOf · = p) = s.begun.filter (kindOf · = p) ++ wait

theorem Good.messagesToModule {s : Abcc} (hgood : Good s) : MessagesToModule s := by
  obtain ⟨ls, hls⟩ := hgood.inv.stored
  refine ⟨hgood.inv.outgoing.messages, fun p hp => ⟨_, ?_, hls.posted p hp⟩⟩
  rw [List.length_map]
  refine (hls.queued.holds p).length_le.trans ?_
  cases p with
  | rspToAbcc => exact Nat.le_refl 1
  | cmdToAbcc => exact Nat.le_refl 1
  | msgToAppl => exact absurd rfl hp

/-- The messages of the module go to the application. -/
structure MessagesOfModule (s : Abcc) : Prop where
  /-- What is put into the queue are the messages that the telegrams of the module are put together
  to, all of them and in their order, but for the last telegram while it waits for a buffer. -/
  delivered : ∃ gs, (s.got = gs ∨
      s.apdr.eState = .processReceivedTelegram ∧ ∃ y, s.got = gs ++ [y]) ∧
    List.Forall₂ Extracted (reassemble (gs.map gotPart)).done s.delivered
  /-- The application takes them in this order, and at most two wait. -/
  taken : ∃ wait, wait.length ≤ 2 ∧ s.delivered = s.taken ++ wait

theorem Good.messagesOfModule {s : Abcc} (hgood : Good s) : MessagesOfModule s := by
  obtain ⟨ls, hls⟩ := hgood.inv.stored
  refine ⟨⟨processed s.link, ?_, hgood.inv.incoming.delivered⟩, _, ?_, hls.delivered⟩
  · by_cases hp : s.link.eState = .processReceivedTelegram
    · obtain ⟨gs, y, hgot, -⟩ := hgood.inv.phase.current hp
      rw [processed_of_concat hp hgot]
      exact .inr ⟨hp, y, hgot⟩
    · rw [processed_of_ne hp]
      exact .inl rfl
  · rw [List.length_map]
    exact (hls.queued.holds .msgToAppl).length_le

/-- **Messages of the module.** -/
theorem abcc_messages_of_module (buf : BufRef → ℕ → UInt8) (ops : List AbccOp)
    (hok : MayRun buf ops) : ∃ s, exec Abcc.step (boot buf) ops = some s ∧ MessagesOfModule s := by
  obtain ⟨s, hs, hgood⟩ := (Good.boot buf).exec hok
  exact ⟨s, hs, hgood.messagesOfModule⟩

theorem abcc_exchange_of_module : ∃ s, exec Abcc.step (boot fun _ _ => 0) exchange = some s ∧
    MessagesOfModule s ∧ s.got.length = 4 ∧ s.delivered = [moduleCommand] ∧
    s.taken = [moduleCommand] := by
  obtain ⟨s, hs, ⟨⟨-, hgot⟩, -⟩, -, hdelivered, -⟩ := exchange_passed
  obtain ⟨s', hs', hmessages⟩ := abcc_messages_of_module _ exchange (exchange_ok fun _ _ => 0)
  obtain rfl := Option.some.inj (hs'.symm.trans hs)
  exact ⟨s', hs, hmessages, hgot, hdelivered⟩

/-- Every buffer is where it should be. -/
structure BuffersKept (s : Abcc) : Prop where
  /-- A buffer in use is in the queue of its pool, or is the one being sent, and this once; a
  buffer that is free is neither. -/
  once : ∀ r, (s.queue r.pool).contents.count (some r)
    + s.apdr.psWriteMsgBuffer.toList.count r = (s.buf r).fEntryUsed.toNat
  /-- The queues hold buffers of their pools, and nothing else. -/
  own : ∀ p, ∀ x ∈ (s.queue p).contents, ∃ r, x = some r ∧ r.pool = p ∧ r.entry < p.length
  /-- The queues do not overflow. -/
  fits : ∀ p, (s.queue p).contents.length ≤ p.length

theorem Good.buffersKept {s : Abcc} (hgood : Good s) : BuffersKept s := by
  obtain ⟨ls, hls⟩ := hgood.inv.stored
  have hq := hls.queued
  have hcontents : ∀ p, (s.queue p).contents = (ls p).map some := fun p => (hq.holds p).contents_eq
  refine ⟨fun r => ?_, fun p x hx => ?_, fun p => ?_⟩
  · rw [hcontents, List.count_map_of_injective _ _ (Option.some_injective _)]
    exact hq.count r
  · rw [hcontents] at hx
    obtain ⟨r, hr, rfl⟩ := List.mem_map.mp hx
    obtain rfl := hq.pool p r hr
    exact ⟨r, rfl, rfl, hq.entry_lt r (hq.used_of_mem hr)⟩
  · rw [hcontents, List.length_map]
    exact (hq.holds p).length_le

/-- **Buffers.**  No buffer is lost, and none is in two places. -/
theorem abcc_buffers_kept (buf : BufRef → ℕ → UInt8) (ops : List AbccOp) (hok : MayRun buf ops) :
    ∃ s, exec Abcc.step (boot buf) ops = some s ∧ BuffersKept s := by
  obtain ⟨s, hs, hgood⟩ := (Good.boot buf).exec hok
  exact ⟨s, hs, hgood.buffersKept⟩

theorem abcc_exchange_buffers : ∃ s, exec Abcc.step (boot fun _ _ => 0) exchange = some s ∧
    BuffersKept s ∧ (s.buf ⟨.rspToAbcc, 0⟩).fEntryUsed = true ∧
    (s.queue .rspToAbcc).contents = [some ⟨.rspToAbcc, 0⟩] := by
  obtain ⟨s, hs, -, -, -, hwaits⟩ := exchange_passed
  obtain ⟨s', hs', hkept⟩ := abcc_buffers_kept _ exchange (exchange_ok fun _ _ => 0)
  obtain rfl := Option.some.inj (hs'.symm.trans hs)
  exact ⟨s', hs, hkept, hwaits⟩

end Runs

end Start01
