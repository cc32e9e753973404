/-
Start01/AbccNet.lean

The Anybus driver and the module, at the two ends of a serial line.  A step is one of the driver's,
in any order; of the line, which keeps the order but may lose any telegram, and on which something
else may come in; or of the module, which keeps to the T bit: it takes a telegram if the bit differs
from that of the last one taken, and answers with its own bit turned over.

Noise is anything that the driver refuses by its check, if it looks at it at all: at the length that
it then expects.

The system is one of `Toggle`: each of its steps is steps there (`Sim.move`).  So each side has
what the other has sent, once and in order, and this holds of the messages that the telegrams
carry.
-/
import Start01.AbccRun

namespace Start01

open Scatter Link Fragment Toggle Run

/-! ### The system -/

/-- The driver, the module and the line between them. -/
structure AbccNet where
  driver : Abcc
  /-- The telegrams that the module has taken. -/
  rcvd : List (List UInt8)
  /-- Its answers. -/
  said : List (ℕ → UInt8)
  /-- On the line to the module, the next to come first. -/
  down : List (List UInt8)
  /-- On the line to the driver. -/
  up : List (ℕ → UInt8)
  /-- What the driver has received last is noise. -/
  noise : Bool

/-- The steps of the system. -/
inductive LinkOp
  /-- A step of the driver, of the application or of the timer. -/
  | driver (op : AbccOp)
  /-- The next answer comes in. -/
  | deliver
  /-- Something else comes in. -/
  | noise (y : ℕ → UInt8)
  /-- What is left on the line. -/
  | lose (xs : List (List UInt8)) (ys : List (ℕ → UInt8))
  /-- The module takes the next telegram, and answers it. -/
  | take (y : ℕ → UInt8)
  /-- The module has taken it before, and may repeat its last answer. -/
  | answer (ys : List (ℕ → UInt8))

/-- If the driver looks at what it has received, the check is not right. -/
def Abcc.Refuses (s : Abcc) : Prop :=
  s.apdr.eState = .waitForTelegram → s.apdr.fTelegramReceived = true → s.crcOk = false

instance (s : Abcc) : Decidable s.Refuses := inferInstanceAs (Decidable (_ → _ → _))

namespace AbccNet

/-- After a reset. -/
def boot (buf : BufRef → ℕ → UInt8) : AbccNet := ⟨.boot buf, [], [], [], [], false⟩

/-- The telegrams that went out from `s` to `s'`. -/
def wentOut (s s' : Abcc) : List (List UInt8) :=
  (sentOut s'.calls).drop (sentOut s.calls).length

/-- One step; `none` if nothing is there to be taken, or the driver does not return. -/
def step (n : AbccNet) : LinkOp → Option AbccNet
  | .driver op => (n.driver.step op).map fun s' =>
    { n with driver := s', down := n.down ++ wentOut n.driver s' }
  | .deliver => match n.up with
    | [] => none
    | y :: ys => some { n with
        driver := n.driver.serialTelegramReceived y, up := ys, noise := false }
  | .noise y => some { n with driver := n.driver.serialTelegramReceived y, noise := true }
  | .lose xs ys => some { n with down := xs, up := ys }
  | .take y => match n.down with
    | [] => none
    | x :: xs => some { n with
        rcvd := n.rcvd ++ [x], said := n.said ++ [y], down := xs, up := n.up ++ [y] }
  | .answer ys => match n.down with
    | [] => none
    | _ :: xs => some { n with down := xs, up := n.up ++ ys }

end AbccNet

/-- What the application, the line and the module keep to. -/
def LinkOp.Ok (n : AbccNet) : LinkOp → Prop
  | .driver (.received _) => False
  | .driver (.run _) => n.noise = true → n.driver.Refuses
  | .driver op => op.Ok n.driver
  | .deliver => 0 < n.up.length
  | .noise _ => True
  | .lose xs ys => xs.Sublist n.down ∧ ys.Sublist n.up
  | .take y => ∃ x ∈ n.down.head?, tBit (x.headD 0) = bit (n.rcvd.length + 1) ∧
    tBit (y 0) = bit (n.said.length + 1)
  | .answer ys => ∃ x ∈ n.down.head?, tBit (x.headD 0) ≠ bit (n.rcvd.length + 1) ∧
    ys.Sublist n.said.getLast?.toList

/-! ### A run of the loop -/

/-- A round that ends in waiting, and does not return, has refused a telegram. -/
theorem Round.received_eq_false {s s' : Abcc} (h : Round s s' false)
    (hs : s'.link.eState = .waitForTelegram) : s'.link.fTelegramReceived = false := by
  have hlt := h.rank_lt rfl
  have hrank : 2 ≤ s'.link.rank := by
    rw [Link.rank, hs]
    dsimp only
    split <;> omega
  obtain ⟨v, hv⟩ : ∃ v, v = s.link := ⟨_, rfl⟩
  obtain ⟨v', hv'⟩ : ∃ v', v' = s'.link := ⟨_, rfl⟩
  have hmove := h.move
  rw [← hv] at hmove hlt
  rw [← hv'] at hmove hlt hs hrank ⊢
  have hnext : ∀ w : Link, v' = w.next → v'.fTelegramReceived = false := by
    intro w hw
    rw [hw] at hs
    rcases w.next_eState with hn | hn | hn
    · rw [hn] at hs
      cases hs
    · rw [hn] at hs
      cases hs
    · rw [hn] at hs
      cases hs
  cases hmove with
  | stay => exact absurd hlt (lt_irrefl _)
  | init => rfl
  | ready => cases hs
  | fetch => cases hs
  | nothing => cases hs
  | fragment r behind t hstate =>
    rw [show v.rank = 1 by rw [Link.rank, hstate]] at hlt
    omega
  | plain t hstate =>
    rw [show v.rank = 1 by rw [Link.rank, hstate]] at hlt
    omega
  | accept => cases hs
  | ignore => rfl
  | again hstate =>
    rcases hstate with hstate | hstate
    · have hsame : v.again.rank = v.rank := by
        rw [Link.rank, Link.rank, hstate]
        rfl
      omega
    · rw [show v.rank = 1 by rw [Link.rank, hstate]] at hlt
      omega
  | lost => cases hs
  | keep => exact hnext _ rfl
  | none => exact hnext _ rfl
  | deliver => exact hnext _ rfl

/-- What a move takes: nothing, or the telegram that it looks at. -/
theorem Move.got_cases {v v' : Link} (h : Move v v') : v'.got = v.got ∨
    v.eState = .waitForTelegram ∧ v.fTelegramReceived = true ∧
      v'.got = v.got ++ [v.pbReceptionBuffer] := by
  cases h with
  | accept hstate hrec => exact .inr ⟨hstate, hrec, rfl⟩
  | keep =>
    rw [next_eq]
    exact .inl rfl
  | none =>
    rw [next_eq]
    exact .inl rfl
  | deliver =>
    rw [next_eq]
    exact .inl rfl
  | stay => exact .inl rfl
  | init => exact .inl rfl
  | ready => exact .inl rfl
  | fetch => exact .inl rfl
  | nothing => exact .inl rfl
  | fragment => exact .inl rfl
  | plain => exact .inl rfl
  | ignore => exact .inl rfl
  | again => exact .inl rfl
  | lost => exact .inl rfl

/-- A telegram is taken only when one is looked at. -/
theorem Move.got_eq {v v' : Link} (h : Move v v')
    (hs : v.eState = .waitForTelegram → v.fTelegramReceived = false) : v'.got = v.got := by
  rcases h.got_cases with hgot | ⟨hstate, hrec, -⟩
  · exact hgot
  · rw [hs hstate] at hrec
    cases hrec

/-- What has been taken is not forgotten. -/
theorem Move.got_isPrefix {v v' : Link} (h : Move v v') : v.got <+: v'.got := by
  rcases h.got_cases with hgot | ⟨-, -, hgot⟩
  · rw [hgot]
  · rw [hgot]
    exact List.prefix_append _ _

namespace Abcc

/-- **Noise is not taken.**  A run of the loop that refuses what has been received takes nothing. -/
theorem runLoop_got (behind : ℕ → UInt8) : ∀ (n : ℕ) {s s' : Abcc}, Inv s.link → s.PdOk →
    s.Refuses → runLoop behind n s = some s' → s'.got = s.got := by
  intro n
  induction n with
  | zero => exact fun _ _ _ hs' => by cases hs'
  | succ n ih =>
    intro s s' hinv hpd hrefuses hs'
    obtain ⟨ls, hls⟩ := hinv.stored
    obtain ⟨s₁, leaves, hpass, hround⟩ := pass_round behind hls.queued
      (hpd _ List.mem_cons_self) (open_of_inv hinv)
    have hgot : s₁.got = s.got := by
      by_cases hlook : s.apdr.eState = .waitForTelegram ∧ s.apdr.fTelegramReceived = true
      · obtain ⟨hwait, hrec⟩ := hlook
        have hbad := hrefuses hwait hrec
        rw [pass, hwait] at hpass
        dsimp only at hpass
        rw [smWaitForTelegram, if_pos hrec, if_neg fun hc => by rw [hbad] at hc; cases hc.2] at hpass
        obtain ⟨rfl, -⟩ := Prod.mk.inj (Option.some.inj hpass)
        rfl
      · exact hround.move.got_eq fun hw => Bool.eq_false_iff.mpr fun hf => hlook ⟨hw, hf⟩
    rw [runLoop, hpass, Option.bind_eq_bind, Option.bind_some] at hs'
    cases leaves with
    | true =>
      obtain rfl := Option.some.inj hs'
      exact hgot
    | false =>
      have hrefuses₁ : s₁.Refuses := fun hw hf => by
        have hfalse : s₁.apdr.fTelegramReceived = false := hround.received_eq_false hw
        rw [hfalse] at hf
        cases hf
      exact (ih (hinv.move hround.move) (hpd.pass hinv hpass) hrefuses₁ hs').trans hgot

end Abcc

/-! ### The simulation -/

/-- The T bits of telegrams and answers. -/
abbrev txBit (t : List UInt8) : Bool := tBit (t.headD 0)

/-- The T bit of an answer. -/
abbrev rxBit (y : ℕ → UInt8) : Bool := tBit (y 0)

/-- A state of the link and of the line as one of `Toggle`. -/
structure Sim (v : Link) (rcvd : List (List UInt8)) (said : List (ℕ → UInt8))
    (down : List (List UInt8)) (up : List (ℕ → UInt8)) (noise : Bool)
    (t : Sys (List UInt8) (ℕ → UInt8)) : Prop where
  sent : t.sent = v.sent
  got : t.got = v.got
  rcvd : t.rcvd = rcvd
  said : t.said = said
  down : t.down = down
  up : t.up = up
  heard : v.fTelegramReceived = true → noise = false → t.heard = some v.pbReceptionBuffer

namespace Sim

variable {v v' : Link} {rcvd down : List (List UInt8)} {said up : List (ℕ → UInt8)}
  {noise : Bool} {t : Sys (List UInt8) (ℕ → UInt8)}

/-- What the line does not see. -/
theorem of_eq (h : Sim v rcvd said down up noise t) (hs : v'.sent = v.sent) (hg : v'.got = v.got)
    (hf : v'.fTelegramReceived = true → v.fTelegramReceived = true ∧
      v'.pbReceptionBuffer = v.pbReceptionBuffer) : Sim v' rcvd said down up noise t where
  sent := h.sent.trans hs.symm
  got := h.got.trans hg.symm
  rcvd := h.rcvd
  said := h.said
  down := h.down
  up := h.up
  heard := by
    intro hf' hquiet
    obtain ⟨hrec, hrx⟩ := hf hf'
    rw [hrx]
    exact h.heard hrec hquiet

theorem launch (h : Sim v rcvd said down up noise t) (hphase : Phase v) (hw : ¬ Waits v)
    {part : Option (List UInt8)} {x : List UInt8} (hnew : IsNew v.bWorkingControlReg part x) :
    ∃ t', Toggle.Step txBit rxBit t t' ∧ Sim (v.launch x) rcvd said (down ++ [x]) up noise t' := by
  have hlen := hphase.length_eq
  rw [if_neg hw, Nat.add_zero] at hlen
  have hbit : txBit x = bit (t.sent.length + 1) := by
    rw [h.sent, bit_succ, ← hphase.work]
    exact hnew.toggled
  refine ⟨_, .build x (by rw [h.sent, h.got, hlen]) hbit, ?_⟩
  exact ⟨by rw [h.sent]; rfl, h.got, h.rcvd, h.said, by rw [h.down], h.up, h.heard⟩

/-- **Step.**  A move of the link that takes no noise is at most one step of `Toggle`. -/
theorem move (h : Sim v rcvd said down up noise t) (hphase : Phase v) (hmove : Move v v')
    (hgot : noise = true → v'.got = v.got) :
    ∃ new t', v'.out = v.out ++ new ∧ Relation.ReflTransGen (Toggle.Step txBit rxBit) t t' ∧
      Sim v' rcvd said (down ++ new) up noise t' := by
  have hquiet : ∀ {w : Link}, w.out = v.out → w.sent = v.sent → w.got = v.got →
      (w.fTelegramReceived = true → v.fTelegramReceived = true ∧
        w.pbReceptionBuffer = v.pbReceptionBuffer) →
      ∃ new t', w.out = v.out ++ new ∧ Relation.ReflTransGen (Toggle.Step txBit rxBit) t t' ∧
        Sim w rcvd said (down ++ new) up noise t' := by
    intro w ho hs hg hf
    refine ⟨[], t, by rw [ho, List.append_nil], .refl, ?_⟩
    rw [List.append_nil]
    exact h.of_eq hs hg hf
  have hsame : v.fTelegramReceived = true → v.fTelegramReceived = true ∧
      v.pbReceptionBuffer = v.pbReceptionBuffer := fun hf => ⟨hf, rfl⟩
  cases hmove with
  | stay => exact hquiet rfl rfl rfl hsame
  | init => exact hquiet rfl rfl rfl fun hf => by cases hf
  | ready => exact hquiet rfl rfl rfl hsame
  | fetch => exact hquiet rfl rfl rfl hsame
  | nothing => exact hquiet rfl rfl rfl hsame
  | fragment r behind x hs _ _ hnew =>
    obtain ⟨t', hstep, hsim⟩ := h.launch hphase (not_waits hs (by decide) (by decide)) hnew
    exact ⟨[x], t', rfl, .single hstep, hsim.of_eq rfl rfl hsame⟩
  | plain x hs hnew =>
    obtain ⟨t', hstep, hsim⟩ := h.launch hphase (not_waits hs (by decide) (by decide)) hnew
    exact ⟨[x], t', rfl, .single hstep, hsim⟩
  | accept hs hrec ht =>
    have hquiet : noise = false := by
      refine Bool.eq_false_iff.mpr fun hn => ?_
      have hmore : v.got ++ [v.pbReceptionBuffer] = v.got := hgot hn
      simp at hmore
    have hlen := hphase.length_eq
    rw [if_pos (.inl hs)] at hlen
    have hlast := hphase.last
    rw [processed_of_ne (by rw [hs]; decide)] at hlast
    have hbit : rxBit v.pbReceptionBuffer = bit (t.got.length + 1) := by
      rw [h.got, bit_succ, ← hlast]
      exact Bool.eq_not_of_ne (Ne.symm ht)
    refine ⟨[], _, (List.append_nil _).symm, .single (.accept v.pbReceptionBuffer (h.heard hrec hquiet)
      (by rw [h.sent, h.got, hlen]) hbit), ?_⟩
    rw [List.append_nil]
    exact ⟨h.sent, by rw [h.got]; rfl, h.rcvd, h.said, h.down, h.up, fun hf => by cases hf⟩
  | ignore => exact hquiet rfl rfl rfl fun hf => by cases hf
  | again hs =>
    have hlen := hphase.length_eq
    rw [if_pos (show Waits v from hs)] at hlen
    refine ⟨[v.telegram], _, rfl, .single (.again v.telegram
      (by rw [h.sent]; exact hphase.telegram hs) (by rw [h.sent, h.got, hlen])), ?_⟩
    exact ⟨h.sent, h.got, h.rcvd, h.said, by rw [h.down], h.up, h.heard⟩
  | lost => exact hquiet rfl rfl rfl hsame
  | keep =>
    rw [next_eq]
    exact hquiet rfl rfl rfl hsame
  | none =>
    rw [next_eq]
    exact hquiet rfl rfl rfl hsame
  | deliver =>
    rw [next_eq]
    exact hquiet rfl rfl rfl hsame

/-- **Run.** -/
theorem moves (h : Sim v rcvd said down up noise t) (hinv : Inv v)
    (hmoves : Relation.ReflTransGen Move v v') (hgot : noise = true → v'.got = v.got) :
    ∃ new t', v'.out = v.out ++ new ∧ Relation.ReflTransGen (Toggle.Step txBit rxBit) t t' ∧
      Sim v' rcvd said (down ++ new) up noise t' := by
  have hrun : Inv v' ∧ v.got <+: v'.got ∧ ((noise = true → v'.got = v.got) →
      ∃ new t', v'.out = v.out ++ new ∧ Relation.ReflTransGen (Toggle.Step txBit rxBit) t t' ∧
        Sim v' rcvd said (down ++ new) up noise t') := by
    clear hgot
    induction hmoves with
    | refl =>
      refine ⟨hinv, List.prefix_refl _, fun _ => ⟨[], t, (List.append_nil _).symm, .refl, ?_⟩⟩
      rw [List.append_nil]
      exact h
    | tail _ hmove ih =>
      obtain ⟨hinv₁, hgrow, ih⟩ := ih
      have hgrow₁ := hmove.got_isPrefix
      refine ⟨hinv₁.move hmove, hgrow.trans hgrow₁, fun hgot => ?_⟩
      -- what is taken in the end has been taken all the time
      have hbetween : noise = true → _ := fun hn =>
        (hgrow.eq_of_length (le_antisymm hgrow.length_le
          (hgot hn ▸ hgrow₁.length_le))).symm
      obtain ⟨new, t₁, hout, hsteps, hsim⟩ := ih hbetween
      obtain ⟨new', t₂, hout', hsteps', hsim'⟩ := hsim.move hinv₁.phase hmove
        fun hn => (hgot hn).trans (hbetween hn).symm
      refine ⟨new ++ new', t₂, ?_, hsteps.trans hsteps', ?_⟩
      · rw [hout', hout, List.append_assoc]
      · rw [← List.append_assoc]
        exact hsim'
  exact hrun.2.2 hgot

end Sim

namespace AbccNet

/-- A state of the system, seen as one of `Toggle`. -/
def Seen (n : AbccNet) (t : Sys (List UInt8) (ℕ → UInt8)) : Prop :=
  Sim n.driver.link n.rcvd n.said n.down n.up n.noise t

/-- What goes out in a step of the driver. -/
theorem driver_step {s s' : Abcc} {rcvd down : List (List UInt8)} {said up : List (ℕ → UInt8)}
    {noise : Bool} {t : Sys (List UInt8) (ℕ → UInt8)} (h : Good s)
    (hsim : Sim s.link rcvd said down up noise t) {op : AbccOp} (hop : ∀ y, op ≠ .received y)
    (hrun : ∀ behind, op = .run behind → noise = true → s.Refuses) (hs' : s.step op = some s')
    (heffect : op.Effect s s') :
    ∃ t', Relation.ReflTransGen (Toggle.Step txBit rxBit) t t' ∧
      Sim s'.link rcvd said (down ++ wentOut s s') up noise t' := by
  have hout : ∀ new, s'.link.out = s.link.out ++ new → wentOut s s' = new := by
    intro new hnew
    have hcalls : sentOut s'.calls = sentOut s.calls ++ new := hnew
    rw [wentOut, hcalls, List.drop_left]
  have hserved : Unmoved s.link.psWriteMsgBuffer.toList s.link s'.link →
      ∃ t', Relation.ReflTransGen (Toggle.Step txBit rxBit) t t' ∧
        Sim s'.link rcvd said (down ++ wentOut s s') up noise t' := by
    intro hs
    refine ⟨t, .refl, ?_⟩
    rw [hout [] (by rw [hs.same, List.append_nil]), List.append_nil, hs.same]
    exact hsim.of_eq rfl rfl fun hf => ⟨hf, rfl⟩
  cases op with
  | run behind =>
    obtain ⟨new, t', hnew, hsteps, hsim'⟩ := hsim.moves h.inv heffect fun hn =>
      Abcc.runLoop_got behind 5 h.inv h.pd (hrun behind rfl hn) hs'
    exact ⟨t', hsteps, (hout new hnew).symm ▸ hsim'⟩
  | received y => exact absurd rfl (hop y)
  | handle app => exact hserved heffect
  | send psMessage => exact hserved heffect
  | cfgSend fill => exact hserved heffect
  | cfgTake => exact hserved heffect
  | change e => exact hserved heffect
  | tick => exact hserved heffect
  | writeProcessData pbData => exact hserved heffect
  | newWritePd => exact hserved heffect
  | pdSize r w => exact hserved heffect

/-- What the driver's own steps are asked for. -/
theorem driverOp_ok {n : AbccNet} {op : AbccOp} (hok : (LinkOp.driver op).Ok n) :
    op.Ok n.driver ∧ (∀ y, op ≠ .received y) ∧
      ∀ behind, op = .run behind → n.noise = true → n.driver.Refuses := by
  cases op with
  | run behind => exact ⟨trivial, fun y hy => (by cases hy), fun _ _ => hok⟩
  | received y => exact absurd hok id
  | handle app => exact ⟨hok, fun y hy => (by cases hy), fun b hb => (by cases hb)⟩
  | send psMessage => exact ⟨hok, fun y hy => (by cases hy), fun b hb => (by cases hb)⟩
  | cfgSend fill => exact ⟨hok, fun y hy => (by cases hy), fun b hb => (by cases hb)⟩
  | cfgTake => exact ⟨hok, fun y hy => (by cases hy), fun b hb => (by cases hb)⟩
  | change e => exact ⟨hok, fun y hy => (by cases hy), fun b hb => (by cases hb)⟩
  | tick => exact ⟨hok, fun y hy => (by cases hy), fun b hb => (by cases hb)⟩
  | writeProcessData d => exact ⟨hok, fun y hy => (by cases hy), fun b hb => (by cases hb)⟩
  | newWritePd => exact ⟨hok, fun y hy => (by cases hy), fun b hb => (by cases hb)⟩
  | pdSize r w => exact ⟨hok, fun y hy => (by cases hy), fun b hb => (by cases hb)⟩

/-- What holds between two steps: the driver is in order, and `Toggle` could have come here. -/
structure Linked (n : AbccNet) : Prop where
  driver : Good n.driver
  seen : ∃ t, Relation.ReflTransGen (Toggle.Step txBit rxBit) start t ∧ n.Seen t

/-- **Step.**  One case for each side and for the line. -/
theorem Linked.step {n : AbccNet} (h : Linked n) {op : LinkOp} (hok : op.Ok n) :
    ∃ n', n.step op = some n' ∧ Linked n' := by
  obtain ⟨hgood, t, hsteps, hsim⟩ := h
  cases op with
  | driver op =>
    obtain ⟨hop, hne, hrefuses⟩ := driverOp_ok hok
    obtain ⟨s', hs', hgood', heffect⟩ := hgood.step hop
    obtain ⟨t', hsteps', hsim'⟩ := driver_step hgood hsim hne hrefuses hs' heffect
    exact ⟨{ n with driver := s', down := n.down ++ wentOut n.driver s' },
      by rw [AbccNet.step, hs']; rfl, hgood', t', hsteps.trans hsteps', hsim'⟩
  | deliver =>
    obtain ⟨y, ys, hup⟩ := List.exists_cons_of_length_pos hok
    refine ⟨{ n with driver := n.driver.serialTelegramReceived y, up := ys, noise := false },
      by rw [AbccNet.step, hup], hgood.received y, _,
      hsteps.tail (.hear y ys (hsim.up.trans hup)), ?_⟩
    exact ⟨hsim.sent, hsim.got, hsim.rcvd, hsim.said, hsim.down, rfl, fun _ _ => rfl⟩
  | noise y =>
    refine ⟨_, rfl, hgood.received y, t, hsteps, ?_⟩
    exact ⟨hsim.sent, hsim.got, hsim.rcvd, hsim.said, hsim.down, hsim.up, fun _ hn => by cases hn⟩
  | lose xs ys =>
    obtain ⟨hxs, hys⟩ := hok
    refine ⟨_, rfl, hgood, _,
      hsteps.tail (.lose xs ys (hsim.down.symm ▸ hxs) (hsim.up.symm ▸ hys)), ?_⟩
    exact ⟨hsim.sent, hsim.got, hsim.rcvd, hsim.said, rfl, rfl, hsim.heard⟩
  | take y =>
    obtain ⟨x, hhead, hx, hy⟩ := hok
    obtain ⟨xs, hdown⟩ := List.head?_eq_some_iff.mp hhead
    refine ⟨{ n with rcvd := n.rcvd ++ [x], said := n.said ++ [y], down := xs, up := n.up ++ [y] },
      by rw [AbccNet.step, hdown], hgood, _, hsteps.tail (.take x xs y
      (hsim.down.trans hdown) (hsim.rcvd.symm ▸ hx) (hsim.said.symm ▸ hy)), ?_⟩
    exact ⟨hsim.sent, hsim.got, by rw [hsim.rcvd], by rw [hsim.said], rfl, by rw [hsim.up],
      hsim.heard⟩
  | answer ys =>
    obtain ⟨x, hhead, hx, hys⟩ := hok
    obtain ⟨xs, hdown⟩ := List.head?_eq_some_iff.mp hhead
    refine ⟨{ n with down := xs, up := n.up ++ ys },
      by rw [AbccNet.step, hdown], hgood, _, hsteps.tail (.answer x xs ys
      (hsim.down.trans hdown) (hsim.rcvd.symm ▸ hx) (hsim.said.symm ▸ hys)), ?_⟩
    exact ⟨hsim.sent, hsim.got, hsim.rcvd, hsim.said, rfl, by rw [hsim.up], hsim.heard⟩

theorem Linked.boot (buf : BufRef → ℕ → UInt8) : Linked (boot buf) :=
  ⟨Good.boot buf, start, .refl, rfl, rfl, rfl, rfl, rfl, rfl, fun hf => by cases hf⟩

/-- Each side has what the other has sent, once and in order. -/
structure ExactlyOnce (n : AbccNet) : Prop where
  rcvd : n.rcvd <+: n.driver.sent ∧ n.driver.sent.length ≤ n.rcvd.length + 1
  got : n.driver.got <+: n.said ∧ n.said.length ≤ n.driver.got.length + 1
  /-- What the module puts together are the first messages that the driver has begun. -/
  toModule : ∃ ms, ms <+: n.driver.begun ∧
    List.Forall₂ (Carries 16) (reassemble (n.rcvd.map sentPart)).done ms
  /-- What the application gets are the first messages that the module has sent. -/
  ofModule : ∃ ms, ms <+: (reassemble (n.said.map gotPart)).done ∧
    List.Forall₂ Extracted ms n.driver.delivered

theorem forall₂_of_isPrefix {α β : Type*} {r : α → β → Prop} {as as' : List α} {bs : List β}
    (h : List.Forall₂ r as bs) (hp : as' <+: as) :
    ∃ bs', bs' <+: bs ∧ List.Forall₂ r as' bs' := by
  obtain ⟨rest, rfl⟩ := hp
  exact ⟨bs.take as'.length, List.take_prefix _ _, List.forall₂_take_append bs as' rest h.flip |>.flip⟩

theorem Linked.exactlyOnce {n : AbccNet} (h : Linked n) : n.ExactlyOnce := by
  obtain ⟨hgood, t, hsteps, hsim⟩ := h
  have htoggle := Inv.of_reachable hsteps
  obtain ⟨hgr, hrs, hsg⟩ := htoggle.lengths
  have hrcvd := htoggle.rcvd_isPrefix
  have hgot := htoggle.got_isPrefix
  have hsaid := htoggle.said_length
  rw [hsim.sent, hsim.rcvd] at hrcvd hrs
  rw [hsim.got, hsim.said] at hgot
  rw [hsim.said, hsim.rcvd] at hsaid
  rw [hsim.got, hsim.rcvd] at hgr
  rw [hsim.sent, hsim.got] at hsg
  have hsent : n.driver.link.sent = n.driver.sent := rfl
  have hlgot : n.driver.link.got = n.driver.got := rfl
  rw [hsent] at hrcvd hrs hsg
  rw [hlgot] at hgot hgr hsg
  refine ⟨⟨hrcvd, by omega⟩, ⟨hgot, by omega⟩, ?_, ?_⟩
  · obtain ⟨ms, hms, hcarried⟩ := hgood.inv.outgoing.messages
    obtain ⟨ms', hms', hcarried'⟩ := forall₂_of_isPrefix hcarried (done_mono (hrcvd.map sentPart))
    have hbegun : n.driver.link.begun = n.driver.begun := rfl
    rw [hbegun] at hms
    refine ⟨ms', hms'.trans ?_, hcarried'⟩
    rcases hms with hms | ⟨m, hms⟩
    · rw [hms]
    · rw [hms]
      exact List.prefix_append _ _
  · refine ⟨_, done_mono (List.IsPrefix.map gotPart ?_), hgood.inv.incoming.delivered⟩
    refine List.IsPrefix.trans ?_ hgot
    by_cases hp : n.driver.link.eState = .processReceivedTelegram
    · obtain ⟨gs, y, hgs, -⟩ := hgood.inv.phase.current hp
      rw [processed_of_concat hp hgs]
      exact ⟨[y], hgs.symm⟩
    · rw [processed_of_ne hp]
      exact List.prefix_refl _

/-- **Exactly once.**  However the steps of the driver, of the application, of the timer, of the
module and of the line come, the driver returns, and telegrams and messages arrive once and in
order. -/
theorem anybus_exactly_once (buf : BufRef → ℕ → UInt8) (ops : List LinkOp)
    (hok : Meets AbccNet.step (fun n op => op.Ok n) (AbccNet.boot buf) ops) :
    ∃ n, exec AbccNet.step (AbccNet.boot buf) ops = some n ∧ n.ExactlyOnce := by
  obtain ⟨n, hn, hlinked⟩ := exec_total (fun _ _ h hop => Linked.step h hop) (Linked.boot buf) hok
  exact ⟨n, hn, hlinked.exactlyOnce⟩

/-- The steps of a run that can be tested. -/
def check (n : AbccNet) : LinkOp → Bool
  | .driver (.run _) => decide (n.noise = true → n.driver.Refuses)
  | .driver (.send psMessage) => isCommand psMessage
  | .driver (.change _) => true
  | .driver .tick => true
  | .deliver => decide (0 < n.up.length)
  | .noise _ => true
  | .lose xs ys => xs.isEmpty && ys.isEmpty
  | .take y => n.down.head?.any fun x => tBit (x.headD 0) == bit (n.rcvd.length + 1) &&
    tBit (y 0) == bit (n.said.length + 1)
  | _ => false

theorem ok_of_check {n : AbccNet} {op : LinkOp} (h : n.check op = true) : op.Ok n := by
  unfold check at h
  split at h
  · have hrefuses := of_decide_eq_true h
    exact hrefuses
  · intro hcmd
    rw [h] at hcmd
    cases hcmd
  · trivial
  · trivial
  · have hcomes := of_decide_eq_true h
    exact hcomes
  · trivial
  · rw [Bool.and_eq_true, List.isEmpty_iff, List.isEmpty_iff] at h
    obtain ⟨rfl, rfl⟩ := h
    exact ⟨List.nil_sublist _, List.nil_sublist _⟩
  · rw [Option.any_eq_true] at h
    obtain ⟨x, hx, h⟩ := h
    rw [Bool.and_eq_true, beq_iff_eq, beq_iff_eq] at h
    exact ⟨x, hx, h⟩
  · cases h

/-- One command each way over the line, with noise, and a telegram lost. -/
def exchange : List LinkOp :=
  firstTelegram.map .driver ++ [.driver (.change .inRunNoPd), .driver (.send longCommand)] ++
    [.take (moduleTelegram [0xA0]), .noise fun _ => 0xFF, .driver (.run fun _ => 0), .deliver,
      .driver (.run fun _ => 0), .lose [] []] ++
    List.replicate 6 (.driver .tick) ++ [.driver (.run fun _ => 0),
      .take (moduleTelegram (0x60 :: moduleCommand.take 16)), .deliver, .driver (.run fun _ => 0),
      .take (moduleTelegram (0xE0 :: moduleCommand.drop 16)), .deliver, .driver (.run fun _ => 0),
      .take (moduleTelegram [0x20]), .deliver, .driver (.run fun _ => 0)]

theorem anybus_exchange : ∃ n, exec AbccNet.step (boot fun _ _ => 0) exchange = some n ∧
    n.ExactlyOnce ∧ (n.rcvd.length = 4 ∧ n.said.length = 4 ∧ n.driver.sent.length = 5) ∧
    (reassemble (n.rcvd.map sentPart)).done = [msgBytes longCommand ++ List.replicate 12 0] ∧
    n.driver.delivered = [moduleCommand] := by
  have hok : Meets AbccNet.step (fun n op => n.check op = true) (boot fun _ _ => 0) exchange := by
    decide +kernel
  have hlengths : (exec AbccNet.step (boot fun _ _ => 0) exchange).map (fun n =>
      (n.rcvd.length, n.said.length, n.driver.sent.length)) = some (4, 4, 5) := by
    decide +kernel
  have hmessages : (exec AbccNet.step (boot fun _ _ => 0) exchange).map (fun n =>
      ((reassemble (n.rcvd.map sentPart)).done, n.driver.delivered))
        = some ([msgBytes longCommand ++ List.replicate 12 0], [moduleCommand]) := by
    decide +kernel
  obtain ⟨n, hn, honce⟩ := anybus_exactly_once (fun _ _ => 0) exchange
    (hok.mono fun _ _ => ok_of_check)
  simp only [hn, Option.map_some, Option.some.injEq, Prod.mk.injEq] at hlengths hmessages
  exact ⟨n, hn, honce, hlengths, hmessages⟩

end AbccNet

end Start01
