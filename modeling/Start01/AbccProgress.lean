/-
Start01/AbccProgress.lean

What the Anybus driver does with an answer.  A telegram with the right T bit and the right check is
accepted by the next run of the loop, and the same run builds the next telegram and posts it, if
there is a buffer for a message of the module.  So a module that answers each telegram keeps the
exchange going (`abcc_answers_accepted`).
-/
import Start01.AbccDamage
import Start01.AbccSilence

namespace Start01

open Run Link

/-! ### Moves, by the state -/

variable {v v' : Link}

theorem move_of_idle (h : v.eState = .idle) (hm : Move v v') :
    (v'.eState = .sendTelegramWithMessage ∨ v'.eState = .sendTelegramWithoutMessage) ∧
      v'.got = v.got ∧ v'.sent = v.sent := by
  cases hm with
  | stay hr => rcases hr with hr | hr | ⟨hr, -⟩ <;> rw [h] at hr <;> cases hr
  | init hs => rw [h] at hs; cases hs
  | ready hs => rw [h] at hs; cases hs
  | fetch => exact ⟨.inl rfl, rfl, rfl⟩
  | nothing => exact ⟨.inr rfl, rfl, rfl⟩
  | fragment _ _ _ hs => rw [h] at hs; cases hs
  | plain _ hs => rw [h] at hs; cases hs
  | accept hs => rw [h] at hs; cases hs
  | ignore hs => rw [h] at hs; cases hs
  | again hs => rcases hs with hs | hs <;> rw [h] at hs <;> cases hs
  | lost hs => rw [h] at hs; cases hs
  | keep hs => rw [h] at hs; cases hs
  | none hs => rw [h] at hs; cases hs
  | deliver _ _ hs => rw [h] at hs; cases hs

theorem move_of_send
    (h : v.eState = .sendTelegramWithMessage ∨ v.eState = .sendTelegramWithoutMessage)
    (hm : Move v v') :
    v'.eState = .waitForTelegram ∧ v'.got = v.got ∧ v'.sent.length = v.sent.length + 1 := by
  have hlaunch : ∀ (w : Link) (t : List UInt8), w.got = v.got → w.sent = v.sent →
      (w.launch t).eState = .waitForTelegram ∧ (w.launch t).got = v.got ∧
        (w.launch t).sent.length = v.sent.length + 1 := by
    intro w t hg hs
    refine ⟨rfl, hg, ?_⟩
    show (w.sent ++ [t]).length = _
    rw [List.length_append, hs]
    rfl
  have hne : ∀ e : ApdrState, e ≠ .sendTelegramWithMessage → e ≠ .sendTelegramWithoutMessage →
      v.eState ≠ e := by
    rintro e h₁ h₂ rfl
    rcases h with h | h
    · exact h₁ h
    · exact h₂ h
  cases hm with
  | stay hr =>
    rcases hr with hr | hr | ⟨hr, -⟩
    · exact absurd hr (hne _ (by decide) (by decide))
    · exact absurd hr (hne _ (by decide) (by decide))
    · exact absurd hr (hne _ (by decide) (by decide))
  | init hs => exact absurd hs (hne _ (by decide) (by decide))
  | ready hs => exact absurd hs (hne _ (by decide) (by decide))
  | fetch _ _ _ hs => exact absurd hs (hne _ (by decide) (by decide))
  | nothing hs => exact absurd hs (hne _ (by decide) (by decide))
  | fragment => exact hlaunch _ _ rfl rfl
  | plain => exact hlaunch _ _ rfl rfl
  | accept hs => exact absurd hs (hne _ (by decide) (by decide))
  | ignore hs => exact absurd hs (hne _ (by decide) (by decide))
  | again hs =>
    rcases hs with hs | hs
    · exact absurd hs (hne _ (by decide) (by decide))
    · exact absurd hs (hne _ (by decide) (by decide))
  | lost hs => exact absurd hs (hne _ (by decide) (by decide))
  | keep hs => exact absurd hs (hne _ (by decide) (by decide))
  | none hs => exact absurd hs (hne _ (by decide) (by decide))
  | deliver _ _ hs => exact absurd hs (hne _ (by decide) (by decide))

/-- A telegram of the module is done with, or waits for a buffer. -/
theorem move_of_process (h : v.eState = .processReceivedTelegram) (hm : Move v v') (hne : v' ≠ v) :
    (v'.eState = .idle ∨ v'.eState = .sendTelegramWithMessage ∨
      v'.eState = .sendTelegramWithoutMessage) ∧ v'.got = v.got ∧ v'.sent = v.sent := by
  have hnext : ∀ w : Link, w.got = v.got → w.sent = v.sent →
      (w.next.eState = .idle ∨ w.next.eState = .sendTelegramWithMessage ∨
        w.next.eState = .sendTelegramWithoutMessage) ∧ w.next.got = v.got ∧
        w.next.sent = v.sent := by
    intro w hg hs
    refine ⟨w.next_eState, ?_, ?_⟩
    · rw [next_eq]
      exact hg
    · rw [next_eq]
      exact hs
  cases hm with
  | stay => exact absurd rfl hne
  | init hs => rw [h] at hs; cases hs
  | ready hs => rw [h] at hs; cases hs
  | fetch _ _ _ hs => rw [h] at hs; cases hs
  | nothing hs => rw [h] at hs; cases hs
  | fragment _ _ _ hs => rw [h] at hs; cases hs
  | plain _ hs => rw [h] at hs; cases hs
  | accept hs => rw [h] at hs; cases hs
  | ignore hs => rw [h] at hs; cases hs
  | again hs => rcases hs with hs | hs <;> rw [h] at hs <;> cases hs
  | lost hs => rw [h] at hs; cases hs
  | keep => exact hnext _ rfl rfl
  | none => exact hnext _ rfl rfl
  | deliver => exact hnext _ rfl rfl

/-! ### A run of the loop -/

namespace Abcc

variable {s : Abcc}

/-- A new telegram, and the driver waits. -/
structure Launches (s s' : Abcc) : Prop where
  waits : s'.link.eState = .waitForTelegram
  got : s'.got = s.got
  sent : s'.sent.length = s.sent.length + 1
  inv : Inv s'.link
  pd : s'.PdOk

theorem runLoop_send (behind : ℕ → UInt8) (n : ℕ) (hinv : Inv s.link) (hpd : s.PdOk)
    (hs : s.link.eState = .sendTelegramWithMessage ∨ s.link.eState = .sendTelegramWithoutMessage) :
    ∃ s', runLoop behind (n + 1) s = some s' ∧ Launches s s' := by
  obtain ⟨ls, hls⟩ := hinv.stored
  obtain ⟨s₁, leaves, hpass, hround⟩ := pass_round behind hls.queued
    (hpd _ List.mem_cons_self) (open_of_inv hinv)
  obtain ⟨hwait, hgot, hsent⟩ := move_of_send hs hround.move
  have hleaves : leaves = true := by
    by_contra hl
    have hlt := hround.rank_lt (Bool.eq_false_of_not_eq_true hl)
    have hrank : s.link.rank = 1 := by
      rcases hs with hs | hs
      · rw [rank, hs]
      · rw [rank, hs]
    have hpos := rank_pos s₁.link
    omega
  refine ⟨s₁, ?_, hwait, hgot, hsent, hinv.move hround.move, hpd.pass hinv hpass⟩
  rw [runLoop, hpass, hleaves]
  rfl

theorem runLoop_idle (behind : ℕ → UInt8) (n : ℕ) (hinv : Inv s.link) (hpd : s.PdOk)
    (hs : s.link.eState = .idle) : ∃ s', runLoop behind (n + 2) s = some s' ∧ Launches s s' := by
  obtain ⟨ls, hls⟩ := hinv.stored
  obtain ⟨s₁, leaves, hpass, hround⟩ := pass_round behind hls.queued
    (hpd _ List.mem_cons_self) (open_of_inv hinv)
  obtain ⟨hstate, hgot, hsent⟩ := move_of_idle hs hround.move
  have hleaves : leaves = false := by
    by_contra hl
    rcases hround.rest (Bool.eq_true_of_not_eq_false hl) with hr | hr | ⟨hr, -⟩
    · rw [hr] at hstate
      rcases hstate with hc | hc <;> cases hc
    · rw [hr] at hstate
      rcases hstate with hc | hc <;> cases hc
    · rw [hr] at hstate
      rcases hstate with hc | hc <;> cases hc
  obtain ⟨s', hrun, h⟩ := runLoop_send behind n (hinv.move hround.move) (hpd.pass hinv hpass) hstate
  refine ⟨s', ?_, h.waits, h.got.trans hgot, h.sent.trans ?_, h.inv, h.pd⟩
  · rw [runLoop, hpass, hleaves]
    exact hrun
  · exact congrArg (·.length + 1) hsent

/-- An answer that will be accepted. -/
def Right (s : Abcc) (y : ℕ → UInt8) : Prop :=
  tBit s.apdr.bLastStatusReg ≠ tBit (y 0) ∧ telegramOk y s.apdr.iSerialLengthRead = true

/-- There is a buffer for a message of the module. -/
def Room (s : Abcc) : Prop := (s.allocate .msgToAppl).isSome = true

/-- With a buffer, the telegram is done with. -/
theorem smProcessReceivedTelegram_goes_on (h : s.Room) : s.smProcessReceivedTelegram.2 = false := by
  unfold smProcessReceivedTelegram
  split
  · rfl
  split
  · rfl
  split
  · rename_i hnone
    rw [passMessage, Option.map_eq_none_iff] at hnone
    rw [Room, hnone] at h
    cases h
  · rfl

theorem runLoop_process (behind : ℕ → UInt8) (n : ℕ) (hinv : Inv s.link) (hpd : s.PdOk)
    (hroom : s.Room) (hs : s.link.eState = .processReceivedTelegram) :
    ∃ s', runLoop behind (n + 3) s = some s' ∧ Launches s s' := by
  obtain ⟨ls, hls⟩ := hinv.stored
  have hround := smProcessReceivedTelegram_round hls.queued hs
  rw [smProcessReceivedTelegram_goes_on hroom] at hround
  obtain ⟨s₁, hs₁⟩ : ∃ s₁, s₁ = s.smProcessReceivedTelegram.1 := ⟨_, rfl⟩
  rw [← hs₁] at hround
  have hinv₁ := hinv.move hround.move
  have hpd₁ : s₁.PdOk := hs₁ ▸ hpd.smProcessReceivedTelegram hinv
  obtain ⟨hstate, hgot, hsent⟩ := move_of_process hs hround.move (by
    intro hsame
    have hlt := hround.rank_lt rfl
    rw [hsame] at hlt
    exact Nat.lt_irrefl _ hlt)
  have hlast : ∃ s', runLoop behind (n + 2) s₁ = some s' ∧ Launches s₁ s' := by
    rcases hstate with hidle | hsend
    · exact runLoop_idle behind n hinv₁ hpd₁ hidle
    · exact runLoop_send behind (n + 1) hinv₁ hpd₁ hsend
  obtain ⟨s', hrun, h⟩ := hlast
  have hpass : s.pass behind = some (s₁, false) := by
    have hs' : s.apdr.eState = .processReceivedTelegram := hs
    unfold pass
    rw [hs']
    exact congrArg some (Prod.ext hs₁.symm (smProcessReceivedTelegram_goes_on hroom))
  refine ⟨s', ?_, h.waits, h.got.trans hgot, h.sent.trans ?_, h.inv, h.pd⟩
  · rw [runLoop, hpass]
    exact hrun
  · exact congrArg (·.length + 1) hsent

theorem allocate_congr {s s' : Abcc} {p : Pool} (h : s'.buf = s.buf) :
    (s'.allocate p).isSome = (s.allocate p).isSome := by
  rw [allocate, allocate, Option.isSome_map, Option.isSome_map, h]

end Abcc

open Abcc

namespace Good

variable {s : Abcc}

/-- **An answer** is accepted by the next run, and the next telegram goes out. -/
theorem answered (h : Good s) (hs : s.link.eState = .waitForTelegram) {y : ℕ → UInt8}
    (hright : s.Right y) (hroom : s.Room) (behind : ℕ → UInt8) :
    ∃ s', Run.exec Abcc.step s [.received y, .run behind] = some s' ∧ Good s' ∧
      s'.link.eState = .waitForTelegram ∧ s'.got = s.got ++ [y] ∧
      s'.sent.length = s.sent.length + 1 := by
  obtain ⟨s₁, hs₁⟩ : ∃ s₁, s₁ = s.serialTelegramReceived y := ⟨_, rfl⟩
  have hgood₁ : Good s₁ := hs₁ ▸ h.received y
  have hwait₁ : s₁.link.eState = .waitForTelegram := by
    rw [hs₁]
    exact hs
  -- the answer is accepted
  have haccept : s₁.smWaitForTelegram = (s₁.accept, false) := by
    rw [smWaitForTelegram, hs₁]
    exact (if_pos rfl).trans (if_pos ⟨(tBit_ne_iff _ _).mpr hright.1, hright.2⟩)
  have hround := smWaitForTelegram_round hwait₁
  rw [haccept] at hround
  have hinv₂ := hgood₁.inv.move hround.move
  have hpd₂ : s₁.accept.PdOk := by
    have hpd := hgood₁.pd.smWaitForTelegram
    rwa [haccept] at hpd
  have hlink := s₁.link_accept
  have hgot₂ : s₁.accept.got = s.got ++ [y] := by
    have hgot := congrArg Link.got hlink
    rw [hs₁] at hgot ⊢
    exact hgot
  have hsent₂ : s₁.accept.sent = s.sent := by
    have hsent := congrArg Link.sent hlink
    rw [hs₁] at hsent ⊢
    exact hsent
  have hroom₂ : s₁.accept.Room := by
    rw [Room, allocate_congr (congrArg Link.buf hlink), hs₁]
    rw [allocate_congr (show (s.serialTelegramReceived y).buf = s.buf from rfl)]
    exact hroom
  -- it is done with, and the next telegram goes out
  obtain ⟨s', hrun, hl⟩ := runLoop_process behind 1 hinv₂ hpd₂ hroom₂ rfl
  have hloop : runLoop behind 5 s₁ = some s' := by
    rw [runLoop, pass_waits hwait₁, haccept]
    exact hrun
  refine ⟨s', ?_, ⟨hl.inv, hl.pd, fun hc => ?_⟩, hl.waits, ?_, ?_⟩
  · rw [Run.exec]
    show Run.exec Abcc.step (s.serialTelegramReceived y) [.run behind] = some s'
    rw [← hs₁, Run.exec]
    show (runLoop behind 5 s₁).bind _ = some s'
    rw [hloop]
    rfl
  · rw [hl.waits] at hc
    cases hc
  · rw [hl.got, hgot₂]
  · rw [hl.sent, hsent₂]

/-- What the application does meanwhile. -/
theorem between (h : Good s) {op : AbccOp} (hok : op.Ok s) (hrun : ∀ behind, op ≠ .run behind)
    (hrec : ∀ y, op ≠ .received y) : ∃ s', s.step op = some s' ∧ Good s' ∧
      s'.link.eState = s.link.eState ∧ s'.got = s.got ∧ s'.sent = s.sent := by
  obtain ⟨s', hs', hgood, heffect⟩ := h.step hok
  have hsame : Unmoved s.link.psWriteMsgBuffer.toList s.link s'.link := by
    cases op with
    | run behind => exact absurd rfl (hrun behind)
    | received y => exact absurd rfl (hrec y)
    | handle => exact heffect
    | send => exact heffect
    | cfgSend => exact heffect
    | cfgTake => exact heffect
    | change => exact heffect
    | tick => exact heffect
    | writeProcessData => exact heffect
    | newWritePd => exact heffect
    | pdSize => exact heffect
  refine ⟨s', hs', hgood, ?_, ?_, ?_⟩
  · rw [hsame.same]
  · exact congrArg Link.got hsame.same
  · exact congrArg Link.sent hsame.same

end Good

/-! ### Answer by answer -/

/-- An answer, the run that takes it, and what comes until the next answer. -/
structure AnswerRound where
  y : ℕ → UInt8
  behind : ℕ → UInt8
  between : List AbccOp

namespace AnswerRound

/-- The steps of a round: the answer comes in, the loop runs, and the rest of the program goes on. -/
def ops (r : AnswerRound) : List AbccOp := .received r.y :: .run r.behind :: r.between

/-- A round as one step. -/
def step (s : Abcc) (r : AnswerRound) : Option Abcc := Run.exec Abcc.step s r.ops

/-- The answer is right, and there is a buffer for a message of the module; then the application
does what it may do. -/
structure Ok (s : Abcc) (r : AnswerRound) : Prop where
  right : s.Right r.y
  room : s.Room
  served : ∀ op ∈ r.between, (∀ behind, op ≠ .run behind) ∧ ∀ y, op ≠ .received y
  mayRun : Meets Abcc.step (fun s op => op.Ok s) s r.ops

end AnswerRound

theorem Good.round {s : Abcc} (h : Good s) (hs : s.link.eState = .waitForTelegram)
    {r : AnswerRound} (hr : r.Ok s) : ∃ s', r.step s = some s' ∧ Good s' ∧
      s'.link.eState = .waitForTelegram ∧ s'.got = s.got ++ [r.y] ∧
      s'.sent.length = s.sent.length + 1 := by
  obtain ⟨s₁, hs₁, hgood, hwait, hgot, hsent⟩ := h.answered hs hr.right hr.room r.behind
  have hmay : Meets Abcc.step (fun s op => op.Ok s) s₁ r.between :=
    (Meets.of_append hs₁ hr.mayRun).2
  have hserved : ∀ (ops : List AbccOp) (t : Abcc), Good t → t.link.eState = .waitForTelegram →
      (∀ op ∈ ops, (∀ behind, op ≠ .run behind) ∧ ∀ y, op ≠ .received y) →
      Meets Abcc.step (fun s op => op.Ok s) t ops →
      ∃ t', Run.exec Abcc.step t ops = some t' ∧ Good t' ∧ t'.link.eState = .waitForTelegram ∧
        t'.got = t.got ∧ t'.sent = t.sent := by
    intro ops
    induction ops with
    | nil => exact fun t ht hw _ _ => ⟨t, rfl, ht, hw, rfl, rfl⟩
    | cons op ops ih =>
      intro t ht hw hall hok
      obtain ⟨hop, hops⟩ := List.forall_mem_cons.mp hall
      obtain ⟨t₁, ht₁, hgood₁, hstate₁, hgot₁, hsent₁⟩ := ht.between hok.1 hop.1 hop.2
      obtain ⟨t', ht', hgood', hwait', hgot', hsent'⟩ :=
        ih t₁ hgood₁ (hstate₁.trans hw) hops (hok.2 t₁ ht₁)
      exact ⟨t', exec_cons_eq_some.mpr ⟨t₁, ht₁, ht'⟩, hgood', hwait', hgot'.trans hgot₁,
        hsent'.trans hsent₁⟩
  obtain ⟨s', hs', hgood', hwait', hgot', hsent'⟩ := hserved r.between s₁ hgood hwait hr.served hmay
  refine ⟨s', ?_, hgood', hwait', hgot'.trans hgot, ?_⟩
  · exact (exec_append hs₁).trans hs'
  · rw [hsent', hsent]

theorem Good.rounds {rounds : List AnswerRound} : ∀ {s : Abcc}, Good s →
    s.link.eState = .waitForTelegram → Meets AnswerRound.step (fun s r => r.Ok s) s rounds →
    ∃ s', Run.exec AnswerRound.step s rounds = some s' ∧ s'.link.eState = .waitForTelegram ∧
      s'.got = s.got ++ rounds.map AnswerRound.y ∧
      s'.sent.length = s.sent.length + rounds.length := by
  induction rounds with
  | nil => exact fun {s} _ hs _ => ⟨s, rfl, hs, (List.append_nil _).symm, rfl⟩
  | cons r rounds ih =>
    intro s h hs hok
    obtain ⟨s₁, hs₁, hgood, hwait, hgot, hsent⟩ := h.round hs hok.1
    obtain ⟨s', hs', hwait', hgot', hsent'⟩ := ih hgood hwait (hok.2 s₁ hs₁)
    refine ⟨s', exec_cons_eq_some.mpr ⟨s₁, hs₁, hs'⟩, hwait', ?_, ?_⟩
    · rw [hgot', hgot, List.map_cons, List.append_assoc, List.singleton_append]
    · rw [hsent', hsent, List.length_cons]
      omega

/-- **Progress.**  In every state reached in which the driver waits, each right answer is accepted
by the run that follows it, and that run sends a telegram: `k` answers, `k` telegrams. -/
theorem abcc_answers_accepted (buf : BufRef → ℕ → UInt8) (ops : List AbccOp) (hok : MayRun buf ops)
    (s : Abcc) (hs : Run.exec Abcc.step (Abcc.boot buf) ops = some s)
    (hwait : s.apdr.eState = .waitForTelegram) (rounds : List AnswerRound)
    (hrounds : Meets AnswerRound.step (fun s r => r.Ok s) s rounds) :
    ∃ s', Run.exec AnswerRound.step s rounds = some s' ∧ s'.apdr.eState = .waitForTelegram ∧
      s'.got = s.got ++ rounds.map AnswerRound.y ∧
      s'.sent.length = s.sent.length + rounds.length := by
  obtain ⟨t, ht, hgood⟩ := (Good.boot buf).exec hok
  obtain rfl := Option.some.inj (ht.symm.trans hs)
  exact hgood.rounds hwait hrounds

set_option maxRecDepth 20000 in
/-- The first telegram waits for an answer like `emptyAnswer`. -/
theorem firstTelegram_waits : ∃ s, Run.exec Abcc.step (Abcc.boot fun _ _ => 0) firstTelegram = some s ∧
    s.apdr.eState = .waitForTelegram ∧ s.apdr.bLastStatusReg = 0 ∧ s.apdr.iSerialLengthRead = 19 ∧
    s.Room := by
  refine ⟨_, rfl, ?_, ?_, ?_, ?_⟩
  · rfl
  · rfl
  · rfl
  · rfl

theorem abcc_first_answer_accepted : ∃ s s',
    Run.exec Abcc.step (Abcc.boot fun _ _ => 0) firstTelegram = some s ∧
    Run.exec AnswerRound.step s [⟨emptyAnswer, fun _ => 0, []⟩] = some s' ∧
    s'.apdr.eState = .waitForTelegram ∧ s'.got = s.got ++ [emptyAnswer] ∧
    s'.sent.length = s.sent.length + 1 := by
  obtain ⟨s, hs, hwait, hlast, hlength, hroom⟩ := firstTelegram_waits
  have hright : s.Right emptyAnswer := by
    rw [Right, hlast, hlength]
    exact ⟨by decide, by decide⟩
  have hok : Meets AnswerRound.step (fun s r => r.Ok s) s [⟨emptyAnswer, fun _ => 0, []⟩] :=
    ⟨⟨hright, hroom, fun op hop => absurd hop List.not_mem_nil,
      trivial, fun _ _ => ⟨trivial, fun _ _ => trivial⟩⟩, fun _ _ => trivial⟩
  obtain ⟨s', hs'⟩ := abcc_answers_accepted _ firstTelegram (firstTelegram_ok _) s hs hwait _ hok
  exact ⟨s, s', hs, hs'⟩

end Start01
