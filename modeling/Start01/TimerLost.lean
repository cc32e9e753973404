/-
Start01/TimerLost.lean

Whether a timer that runs out is noticed.  The interrupt counts the timers down and sets
`irq_flag`; `timer_srv` looks at all slots of a device whose flag it finds set, and
clears the flag *behind* the scan.

A timer that runs out when the scan has gone past its slot, or between the test of the
flag and its clearing, is left behind with the flag cleared.  `LostSafe` excludes
this, and the other ways in which a timer gets a time that has run out already; in a
run of such steps every timer that has run out is announced by its flag, and every
complete pass serves the timers that had run out when it started
(`expiry_not_lost`).
-/
import Start01.TimerNum

namespace Start01

open Run

attribute [ext] TID

/-! ### What is asked -/

/-- A pass is going on and has not yet come to the slot. -/
def SrvPc.Ahead : SrvPc → TID → Prop
  | .idle, _ | .fault, _ => False
  | .device ds, t | .clear _ ds, t => t.dev ∈ ds
  | .timerNum d ds, t => t.dev = d ∨ t.dev ∈ ds
  | .slots d ds js, t | .rearm d ds _ js, t | .call d ds _ js, t | .called d ds js, t =>
      t.dev = d ∧ t.id ∈ js ∨ t.dev ∈ ds

/-- A timer that has run out is announced, or will still be looked at. -/
def NoneLost (s : TimerSys) : Prop :=
  ∀ t, (s.timers.timer t).Due → (s.timers.dev t.dev).irqFlag = 1 ∨ s.pc.Ahead t

/-- The pass just completed has served what had run out when it started. -/
def AllServed (L : TimerDevList) (s : TimerSys) : Prop :=
  s.pc = .idle → ∀ t, t.dev ∈ L.devs → s.expired t → t ∈ s.served

/-- The flag of the device can still be cleared without the slot being looked at: the scan
has not gone past it. -/
def SrvPc.Waits : SrvPc → TID → Prop
  | .slots d _ js, t | .call d _ _ js, t | .called d _ js, t => t.dev = d → t.id ∈ js
  | .rearm d _ j js, t => t.dev = d → t.id = j ∨ t.id ∈ js
  | .clear d _, t => t.dev ≠ d
  | _, _ => True

/-- A timer that runs out now will be looked at. -/
def Watched (s : TimerSys) (t : TID) : Prop :=
  (s.timers.dev t.dev).irqFlag = 1 ∧ s.pc.Waits t

/-- No timer runs out behind the scan; a timer served does not stay run out; one that is
created or reset has time left, or is watched; and a function called does not reset a
timer that has run out. -/
def LostSafe (s : TimerSys) : SysOp → Prop
  | .enter => True
  | .tick d => ∀ j, ¬ (s.timers.timer ⟨d, j⟩).Due →
      ((s.timers.timer ⟨d, j⟩).count (s.timers.dev d).periodUs).Due → s.pc.Waits ⟨d, j⟩
  | .main =>
    match s.pc with
    | .rearm d _ j _ => ¬ (s.timers.timer ⟨d, j⟩).rearm.Due
    | _ => True
  | .api (.createTimer (some d) timeoutUs timerCb arg flag) =>
      (s.timers.dev d).timerNum.toNat < maxTimerNum →
      ∀ id, getFreeTimerId (s.timers.dev d) = some id →
        (newTimer id timeoutUs timerCb arg flag).Due → Watched s ⟨d, id⟩
  | .api (.timerReset (some t)) => (s.timers.timer t).flag = loop →
      (Timer.Due { s.timers.timer t with timeoutUs := (s.timers.timer t).reloadTimeoutUs } →
        Watched s t) ∧ (s.pc ≠ .idle → ¬ (s.timers.timer t).Due)
  | .api _ => True

/-! ### The invariant -/

/-- The timer is among those the pass still has to serve. -/
def SrvPc.Pending : SrvPc → TID → Prop
  | .rearm d ds j js, t => t.dev = d ∧ (t.id = j ∨ t.id ∈ js) ∨ t.dev ∈ ds
  | pc, t => pc.Ahead t

/-- The timer is about to be served. -/
def SrvPc.Calls : SrvPc → TID → Prop
  | .call d _ j _, t => t = ⟨d, j⟩
  | _, _ => False

/-- The timer is served, or will be. -/
def Owed (s : TimerSys) (t : TID) : Prop :=
  t ∈ s.served ∨ (s.timers.timer t).Due ∧ s.pc.Pending t ∨ s.pc.Calls t

/-- The invariant of a run that loses no expiry. -/
structure LostSound (L : TimerDevList) (s : TimerSys) : Prop where
  num : ∀ t, (s.timers.timer t).used ≠ 0 → (s.timers.dev t.dev).timerNum > 0
  watched : ∀ t, (s.timers.timer t).Due → Watched s t
  owed : s.pc ≠ .fault → ∀ t, t.dev ∈ L.devs → s.expired t → Owed s t

theorem LostSound.noneLost {L : TimerDevList} {s : TimerSys} (h : LostSound L s) : NoneLost s :=
  fun t ht => .inl (h.watched t ht).1

theorem LostSound.allServed {L : TimerDevList} {s : TimerSys} (h : LostSound L s) :
    AllServed L s := by
  intro hpc t ht hexp
  have how := h.owed (by rw [hpc]; exact nofun) t ht hexp
  unfold Owed at how
  rw [hpc] at how
  exact how.resolve_right (fun hc => hc.elim (fun hp => hp.2) id)

/-! ### Steps -/

theorem Timer.used_of_rearm {t : Timer} (h : t.rearm.used ≠ 0) : t.used ≠ 0 := by
  by_cases hone : t.flag = oneTime
  · rw [Timer.rearm_of_oneTime hone] at h
    exact absurd rfl h
  · rwa [(Timer.rearm_of_ne hone).1] at h

theorem timerNum_succ_pos {n : UInt32} (h : n.toNat < maxTimerNum) : n + 1 > 0 := by
  have hone : (1 : UInt32).toNat = 1 := rfl
  have hlt : maxTimerNum < 2 ^ 32 := by decide
  rw [gt_iff_lt, UInt32.lt_iff_toNat_lt, UInt32.toNat_add, hone, Nat.mod_eq_of_lt (by omega)]
  exact Nat.succ_pos _

theorem irqFlag_setTimer (s : TimerState) (t : TID) (v : Timer) (e : Addr) :
    ((s.setTimer t v).dev e).irqFlag = (s.dev e).irqFlag := by
  rw [TimerState.dev_setTimer]
  split
  · rename_i he
    rw [he]
  · rfl

theorem irqFlag_setSuspend (s : TimerState) (dev : Option Addr) (timer : Option TID) (v : UInt8)
    (e : Addr) : ((setSuspend s dev timer v).dev e).irqFlag = (s.dev e).irqFlag := by
  unfold setSuspend
  split
  · exact irqFlag_setTimer _ _ _ e
  · rfl

/-- `suspend` plays no part in whether a timer has run out. -/
theorem due_setSuspend (s : TimerState) (dev : Option Addr) (timer : Option TID) (v : UInt8)
    (t : TID) : ((setSuspend s dev timer v).timer t).Due ↔ (s.timer t).Due := by
  unfold setSuspend
  split
  · rw [TimerState.timer_setTimer]
    split
    · rename_i ht
      rw [ht]
      exact Iff.rfl
    · exact Iff.rfl
  · exact Iff.rfl

theorem SameUse.num_pos {s s' : TimerState} (hsame : SameUse s s')
    (h : ∀ t, (s.timer t).used ≠ 0 → (s.dev t.dev).timerNum > 0) (t : TID)
    (ht : (s'.timer t).used ≠ 0) : (s'.dev t.dev).timerNum > 0 := by
  rw [hsame.num]
  rw [hsame.used] at ht
  exact h t ht

namespace LostSound

variable {L : TimerDevList} {s s' : TimerSys}

/-- A step that changes no timer and no device. -/
theorem goto (h : LostSound L s) {pc : SrvPc} (hfault : s.pc ≠ .fault)
    (hcalls : ∀ t, ¬ s.pc.Calls t)
    (hwaits : ∀ t, (s.timers.timer t).Due → Watched s t → pc.Waits t)
    (hpending : ∀ t, (s.timers.timer t).Due → s.pc.Pending t → pc.Pending t) :
    LostSound L (s.goto pc) := by
  refine ⟨h.num, fun t ht => ?_, fun _ t ht hexp => ?_⟩
  · have hw := h.watched t ht
    exact ⟨hw.1, hwaits t ht hw⟩
  · obtain hserved | ⟨hdue, hpend⟩ | hcall := h.owed hfault t ht hexp
    · exact .inl hserved
    · exact .inr (.inl ⟨hdue, hpending t hdue hpend⟩)
    · exact absurd hcall (hcalls t)

theorem enter (h : LostSound L s) (heq : s.enter L = some s') : LostSound L s' := by
  obtain ⟨timers, pc, expired, served⟩ := s
  cases pc with
  | idle =>
    obtain rfl := Option.some.inj heq
    refine ⟨h.num, fun t ht => ⟨(h.watched t ht).1, trivial⟩, fun _ t ht hexp => ?_⟩
    exact .inr (.inl ⟨of_decide_eq_true hexp, ht⟩)
  | _ => cases heq

theorem tick (h : LostSound L s) {d : Addr} (hsafe : LostSafe s (.tick d)) :
    LostSound L (s.tick d) := by
  have hirq : ∀ e, ((s.tick d).timers.dev e).irqFlag
      = if e = d then 1 else (s.timers.dev e).irqFlag := by
    intro e
    simp only [TimerSys.tick, doTimer, TimerState.setDev, Function.update_apply]
    split <;> rfl
  have htimer : ∀ t, (s.tick d).timers.timer t = if t.dev = d then
      (s.timers.timer t).count (s.timers.dev d).periodUs else s.timers.timer t :=
    timer_doTimer s.timers d
  have hsame := SameUse.doTimer s.timers d
  refine ⟨fun t ht => ?_, fun t ht => ?_, fun hpc t ht hexp => ?_⟩
  · rw [show ((s.tick d).timers.timer t).used = _ from hsame.used t] at ht
    rw [show ((s.tick d).timers.dev t.dev).timerNum = _ from hsame.num t.dev]
    exact h.num t ht
  · rw [htimer] at ht
    unfold Watched
    rw [hirq]
    by_cases hd : t.dev = d
    · rw [if_pos hd] at ht ⊢
      refine ⟨rfl, ?_⟩
      by_cases hdue : (s.timers.timer t).Due
      · exact (h.watched t hdue).2
      · obtain ⟨e, j⟩ := t
        subst hd
        exact hsafe j hdue ht
    · rw [if_neg hd] at ht ⊢
      exact h.watched t ht
  · -- what has run out is not counted down
    refine (h.owed hpc t ht hexp).imp_right (Or.imp_left fun hp => ⟨?_, hp.2⟩)
    rw [htimer, Timer.count_of_le hp.1.2.1, ite_self]
    exact hp.1

/-- The re-arming of a timer, which ends its being run out. -/
theorem rearm {timers : TimerState} {d : Addr} {ds : List Addr} {j : Fin maxTimerNum}
    {js : List (Fin maxTimerNum)} {expired : TID → Bool} {served : List TID}
    (h : LostSound L ⟨timers, .rearm d ds j js, expired, served⟩)
    (hsafe : ¬ (timers.timer ⟨d, j⟩).rearm.Due) :
    LostSound L ⟨timers.setTimer ⟨d, j⟩ (timers.timer ⟨d, j⟩).rearm, .call d ds j js, expired,
      served⟩ := by
  have hdev : ∀ e, ((timers.setTimer ⟨d, j⟩ (timers.timer ⟨d, j⟩).rearm).dev e).irqFlag
      = (timers.dev e).irqFlag ∧
      ((timers.setTimer ⟨d, j⟩ (timers.timer ⟨d, j⟩).rearm).dev e).timerNum
      = (timers.dev e).timerNum := by
    intro e
    rw [TimerState.dev_setTimer]
    by_cases he : e = d
    · rw [if_pos he, he]
      exact ⟨rfl, rfl⟩
    · rw [if_neg he]
      exact ⟨rfl, rfl⟩
  refine ⟨fun t ht => ?_, fun t ht => ?_, fun hpc t ht hexp => ?_⟩
  · dsimp only at ht ⊢
    rw [(hdev t.dev).2]
    rw [TimerState.timer_setTimer] at ht
    refine h.num t ?_
    by_cases heq : t = ⟨d, j⟩
    · rw [if_pos heq] at ht
      rw [heq]
      exact Timer.used_of_rearm ht
    · rw [if_neg heq] at ht
      exact ht
  · dsimp only at ht
    rw [TimerState.timer_setTimer] at ht
    by_cases heq : t = ⟨d, j⟩
    · rw [if_pos heq] at ht
      exact absurd ht hsafe
    · rw [if_neg heq] at ht
      obtain ⟨hirq, hwaits⟩ := h.watched t ht
      refine ⟨(hdev t.dev).1.trans hirq, fun hd => ?_⟩
      exact (hwaits hd).resolve_left fun hid => heq (TID.ext hd hid)
  · by_cases heq : t = ⟨d, j⟩
    · exact .inr (.inr heq)
    · obtain hserved | ⟨hdue, hpend⟩ | hcall := h.owed (by exact nofun) t ht hexp
      · exact .inl hserved
      · refine .inr (.inl ⟨?_, ?_⟩)
        · dsimp only
          rw [TimerState.timer_setTimer, if_neg heq]
          exact hdue
        · exact hpend.imp_left fun hp => ⟨hp.1, hp.2.resolve_left fun hid => heq (TID.ext hp.1 hid)⟩
      · exact hcall.elim

/-- **A step of the main loop** keeps the invariant. -/
theorem main (h : LostSound L s) (hsafe : LostSafe s .main) (heq : s.main = some s') :
    LostSound L s' := by
  obtain ⟨timers, pc, expired, served⟩ := s
  cases pc with
  | idle | fault => cases heq
  | device ds =>
    cases ds with
    | nil =>
      obtain rfl := Option.some.inj heq
      exact h.goto (by rintro ⟨⟩) (fun _ => id) (fun _ _ _ => trivial) fun t _ hp => absurd hp List.not_mem_nil
    | cons d ds =>
      obtain rfl := Option.some.inj heq
      refine h.goto (by rintro ⟨⟩) (fun _ => id) (fun t hdue hw => ?_) fun t hdue hp => ?_
      · split_ifs with hirq
        · trivial
        · -- the flag of a timer that has run out is set
          rintro rfl
          exact absurd hw.1 (fun hone => hirq (by rw [hone]; decide))
      · have hw := h.watched t hdue
        split_ifs with hirq
        · exact List.mem_cons.mp hp
        · refine (List.mem_cons.mp hp).resolve_left ?_
          rintro rfl
          exact absurd hw.1 (fun hone => hirq (by rw [hone]; decide))
  | timerNum d ds =>
    obtain rfl := Option.some.inj heq
    refine h.goto (by rintro ⟨⟩) (fun _ => id) (fun t hdue hw => ?_) fun t hdue hp => ?_
    · split_ifs with hnum
      · exact fun _ => List.mem_finRange t.id
      · rintro rfl
        exact hnum (h.num t hdue.1)
    · split_ifs with hnum
      · exact hp.imp_left fun hd => ⟨hd, List.mem_finRange t.id⟩
      · refine hp.resolve_left ?_
        rintro rfl
        exact hnum (h.num t hdue.1)
  | slots d ds js =>
    cases js with
    | nil =>
      obtain rfl := Option.some.inj heq
      refine h.goto (by rintro ⟨⟩) (fun _ => id) (fun t _ hw hd => ?_) fun t _ hp => ?_
      · exact absurd (hw.2 hd) List.not_mem_nil
      · exact hp.resolve_left fun hc => absurd hc.2 List.not_mem_nil
    | cons j js =>
      obtain rfl := Option.some.inj heq
      refine h.goto (by rintro ⟨⟩) (fun _ => id) (fun t hdue hw => ?_) fun t hdue hp => ?_
      · split_ifs with hj
        · exact fun hd => List.mem_cons.mp (hw.2 hd)
        · refine fun hd => (List.mem_cons.mp (hw.2 hd)).resolve_left fun hid => hj ?_
          rwa [← show t = ⟨d, j⟩ from TID.ext hd hid]
      · split_ifs with hj
        · exact hp.imp_left fun hc => ⟨hc.1, List.mem_cons.mp hc.2⟩
        · refine hp.imp_left fun hc => ⟨hc.1, (List.mem_cons.mp hc.2).resolve_left fun hid => hj ?_⟩
          rwa [← show t = ⟨d, j⟩ from TID.ext hc.1 hid]
  | rearm d ds j js =>
    obtain rfl := Option.some.inj heq
    exact h.rearm hsafe
  | call d ds j js =>
    cases hfn : (timers.timer ⟨d, j⟩).fn with
    | none =>
      simp only [TimerSys.main, hfn] at heq
      obtain rfl := Option.some.inj heq
      exact ⟨h.num, fun t ht => ⟨(h.watched t ht).1, trivial⟩, fun hpc => absurd rfl hpc⟩
    | some f =>
      simp only [TimerSys.main, hfn] at heq
      obtain rfl := Option.some.inj heq
      refine ⟨h.num, h.watched, fun _ t ht hexp => ?_⟩
      obtain hserved | hdue | hcall := h.owed (by rintro ⟨⟩) t ht hexp
      · exact .inl (List.mem_cons_of_mem _ hserved)
      · exact .inr (.inl hdue)
      · exact .inl (List.mem_cons.mpr (.inl hcall))
  | called d ds js =>
    obtain rfl := Option.some.inj heq
    exact h.goto (by rintro ⟨⟩) (fun _ => id) (fun t _ hw => hw.2) fun t _ hp => hp
  | clear d ds =>
    obtain rfl := Option.some.inj heq
    have hsame := SameUse.clearIrq d timers
    refine ⟨fun t ht => ?_, fun t ht => ?_, fun _ t ht hexp => ?_⟩
    · dsimp only at ht ⊢
      rw [hsame.used] at ht
      rw [hsame.num]
      exact h.num t ht
    · dsimp only at ht
      rw [timer_clearIrq] at ht
      obtain ⟨hirq, hne⟩ := h.watched t ht
      refine ⟨?_, trivial⟩
      dsimp only
      rw [clearIrq_of_ne timers hne]
      exact hirq
    · obtain hserved | ⟨hdue, hpend⟩ | hcall := h.owed (by rintro ⟨⟩) t ht hexp
      · exact .inl hserved
      · refine .inr (.inl ⟨?_, hpend⟩)
        dsimp only
        rw [timer_clearIrq]
        exact hdue
      · exact hcall.elim

/-- What a call does to the timers, in a state in which it may be made. -/
theorem setTimers (h : LostSound L s) {timers : TimerState}
    (hirq : ∀ e, (timers.dev e).irqFlag = (s.timers.dev e).irqFlag)
    (hnum : ∀ t, (timers.timer t).used ≠ 0 → (timers.dev t.dev).timerNum > 0)
    (hdue : ∀ t, (timers.timer t).Due → Watched s t)
    (hkeep : ∀ t, (s.timers.timer t).Due → s.pc ≠ .idle → (timers.timer t).Due) :
    LostSound L { s with timers := timers } := by
  refine ⟨hnum, fun t ht => ?_, fun hpc t ht hexp => ?_⟩
  · have hw := hdue t ht
    exact ⟨(hirq t.dev).trans hw.1, hw.2⟩
  · obtain hserved | ⟨hd, hpend⟩ | hcall := h.owed hpc t ht hexp
    · exact .inl hserved
    · refine .inr (.inl ⟨hkeep t hd fun hidle => ?_, hpend⟩)
      rw [hidle] at hpend
      exact hpend
    · exact .inr (.inr hcall)

theorem setSuspend (h : LostSound L s) (dev : Option Addr) (timer : Option TID) (v : UInt8) :
    LostSound L { s with timers := Start01.setSuspend s.timers dev timer v } :=
  h.setTimers (irqFlag_setSuspend s.timers dev timer v)
    ((SameUse.setSuspend s.timers dev timer v).num_pos h.num)
    (fun t ht => h.watched t ((due_setSuspend _ _ _ _ t).mp ht))
    fun t ht _ => (due_setSuspend _ _ _ _ t).mpr ht

theorem create (h : LostSound L s) {d : Addr} {timeoutUs : UInt32} {timerCb arg : Option Addr}
    {flag : UInt8} (hsafe : LostSafe s (.api (.createTimer (some d) timeoutUs timerCb arg flag))) :
    LostSound L { s with timers := (createTimer s.timers (some d) timeoutUs timerCb arg flag).2 } := by
  obtain ⟨-, heq⟩ | ⟨-, -, heq⟩ | ⟨id, timers', hlt, hid, heq, htimer, hdev⟩ :=
    createTimer_some s.timers d timeoutUs timerCb arg flag
  · rw [heq]
    exact h
  · rw [heq]
    exact h
  · rw [heq]
    have hfree := getFreeTimerId_used hid
    refine h.setTimers (fun e => (hdev e).1) (fun t ht => ?_) (fun t ht => ?_) fun t ht _ => ?_
    · rw [(hdev t.dev).2]
      split
      · exact timerNum_succ_pos hlt
      · rename_i hd
        rw [htimer, if_neg fun hc => hd (congrArg TID.dev hc)] at ht
        exact h.num t ht
    · rw [htimer] at ht
      split_ifs at ht with hc
      · rw [hc]
        exact hsafe hlt id hid ht
      · exact h.watched t ht
    · rw [htimer, if_neg]
      · exact ht
      · rintro rfl
        exact ht.1 hfree

theorem resetTimer (h : LostSound L s) {t₀ : TID}
    (hsafe : LostSafe s (.api (.timerReset (some t₀)))) :
    LostSound L { s with timers := (timerReset s.timers (some t₀)).2 } := by
  have hsame := SameUse.timerReset s.timers (some t₀)
  by_cases hloop : (s.timers.timer t₀).flag = loop
  · have heq : (timerReset s.timers (some t₀)).2 = s.timers.setTimer t₀
        { s.timers.timer t₀ with timeoutUs := (s.timers.timer t₀).reloadTimeoutUs } := by
      rw [timerReset]
      exact if_pos hloop
    obtain ⟨hdue, hkeep⟩ := hsafe hloop
    refine h.setTimers (fun e => ?_) (fun t ht => ?_) (fun t ht => ?_) fun t ht hidle => ?_
    · rw [heq, irqFlag_setTimer]
    · exact hsame.num_pos h.num t ht
    · rw [heq, TimerState.timer_setTimer] at ht
      split_ifs at ht with hc
      · rw [hc]
        exact hdue ht
      · exact h.watched t ht
    · rw [heq, TimerState.timer_setTimer, if_neg]
      · exact ht
      · rintro rfl
        exact hkeep hidle ht
  · have heq : (timerReset s.timers (some t₀)).2 = s.timers := by
      rw [timerReset]
      exact if_neg hloop
    rw [heq]
    exact h

/-- **A call of the API** keeps the invariant. -/
theorem api (h : LostSound L s) {c : ApiCall} (hsafe : LostSafe s (.api c))
    (heq : s.api c = some s') : LostSound L s' := by
  have hpc : s' = { s with timers := apiCall s.timers c } := by
    obtain ⟨timers, pc, expired, served⟩ := s
    cases pc with
    | idle | called => exact (Option.some.inj heq).symm
    | _ => cases heq
  rw [hpc]
  cases c with
  | createTimer dev timeoutUs timerCb arg flag =>
    cases dev with
    | none => exact h
    | some d => exact h.create hsafe
  | timerReset timer =>
    cases timer with
    | none => exact h
    | some t₀ => exact h.resetTimer hsafe
  | timerStart dev timer => exact h.setSuspend dev timer 0
  | timerStop dev timer => exact h.setSuspend dev timer 1

/-- **Step.** -/
theorem step (h : LostSound L s) {op : SysOp} (hsafe : LostSafe s op)
    (heq : sysStep L s op = some s') : LostSound L s' := by
  cases op with
  | enter => exact h.enter heq
  | main => exact h.main hsafe heq
  | api c => exact h.api hsafe heq
  | tick d =>
    obtain rfl := Option.some.inj heq
    exact h.tick hsafe

theorem reset (L : TimerDevList) (periodUs : UInt32) : LostSound L (.reset periodUs) where
  num t ht := absurd rfl ht
  watched t ht := absurd rfl ht.1
  owed _ t _ hexp := by cases hexp

end LostSound

/-- **Timers that run out**, as far as they are noticed.  In every run on devices after
`timer_init_cfg` whose steps are safe, a timer in use with a function that has run
out is announced by the `irq_flag` of its device, or the pass going on has not come
to its slot; and a pass that completes has served every timer that had run out when
it started. -/
theorem expiry_not_lost (L : TimerDevList) (periodUs : UInt32) {ops : List SysOp} {s : TimerSys}
    (hsafe : Meets (sysStep L) LostSafe (.reset periodUs) ops)
    (hrun : exec (sysStep L) (.reset periodUs) ops = some s) : NoneLost s ∧ AllServed L s := by
  have hs : LostSound L s := exec_invariant (P := LostSound L)
    (fun _ _ _ h hC heq => h.step hC heq) (LostSound.reset L periodUs) hsafe hrun
  exact ⟨hs.noneLost, hs.allServed⟩

instance : ∀ pc t, Decidable (SrvPc.Waits pc t)
  | .slots d _ js, t | .call d _ _ js, t | .called d _ js, t =>
      inferInstanceAs (Decidable (t.dev = d → t.id ∈ js))
  | .rearm d _ j js, t => inferInstanceAs (Decidable (t.dev = d → t.id = j ∨ t.id ∈ js))
  | .clear d _, t => inferInstanceAs (Decidable (t.dev ≠ d))
  | .idle, _ | .device _, _ | .timerNum _ _, _ | .fault, _ => inferInstanceAs (Decidable True)

instance (s : TimerSys) (t : TID) : Decidable (Watched s t) :=
  inferInstanceAs (Decidable ((s.timers.dev t.dev).irqFlag = 1 ∧ s.pc.Waits t))

instance (s : TimerSys) (op : SysOp) : Decidable (LostSafe s op) := by
  cases op with
  | enter => exact .isTrue trivial
  | tick d => unfold LostSafe; infer_instance
  | main =>
    obtain ⟨timers, pc, expired, served⟩ := s
    cases pc <;> unfold LostSafe <;> infer_instance
  | api c =>
    cases c with
    | createTimer dev => cases dev <;> unfold LostSafe <;> infer_instance
    | timerReset timer => cases timer <;> unfold LostSafe <;> infer_instance
    | timerStart | timerStop => exact .isTrue trivial

/-- The first timer of the device at 2000. -/
def firstTimer : TID := ⟨2000, ⟨0, by decide⟩⟩

/-- The timer runs out, and the pass that follows serves it. -/
theorem expiry_not_lost_loop : ∃ s, exec (sysStep oneTimerDevice) (.reset 5000)
    (oneTimerPass loop 16) = some s ∧ s.pc = .idle ∧ s.expired firstTimer ∧ NoneLost s ∧
    firstTimer ∈ s.served := by
  have hval : (exec (sysStep oneTimerDevice) (.reset 5000) (oneTimerPass loop 16)).map
      (fun s => (s.pc, s.expired firstTimer)) = some (.idle, true) := by
    decide +kernel
  obtain ⟨s, hrun, hs⟩ := Option.map_eq_some_iff.mp hval
  obtain ⟨hpc, hexp⟩ := Prod.mk.injEq .. ▸ hs
  obtain ⟨hnone, hall⟩ := expiry_not_lost oneTimerDevice 5000 (by decide +kernel) hrun
  exact ⟨s, hrun, hpc, hexp, hnone, hall hpc firstTimer (List.mem_singleton.mpr rfl) hexp⟩

/-- A timer of 10 ms; a pass after one tick of 5 ms has looked at its slot when the next
tick comes. -/
def lateTick : List SysOp :=
  [.api (.createTimer (some 2000) 10000 (some 77) none loop), .tick 2000, .enter, .main, .main,
    .main, .tick 2000] ++ List.replicate 10 .main

/-- The timer has run out with the flag cleared, and the next pass does not serve it. -/
theorem expiry_lost :
    (∃ s, exec (sysStep oneTimerDevice) (.reset 5000) lateTick = some s ∧ s.pc = .idle ∧
      ¬ NoneLost s) ∧
    ∃ s, exec (sysStep oneTimerDevice) (.reset 5000) (lateTick ++ [.enter, .main, .main, .main])
      = some s ∧ s.pc = .idle ∧ ¬ AllServed oneTimerDevice s := by
  have hlost : (exec (sysStep oneTimerDevice) (.reset 5000) lateTick).map
      (fun s => (s.pc, decide (s.timers.timer firstTimer).Due, (s.timers.dev 2000).irqFlag))
      = some (.idle, true, 0) := by
    decide +kernel
  have hpass : (exec (sysStep oneTimerDevice) (.reset 5000)
      (lateTick ++ [.enter, .main, .main, .main])).map
      (fun s => (s.pc, s.expired firstTimer, s.served)) = some (.idle, true, []) := by
    decide +kernel
  constructor
  · obtain ⟨s, hrun, hs⟩ := Option.map_eq_some_iff.mp hlost
    simp only [Prod.mk.injEq, decide_eq_true_eq] at hs
    obtain ⟨hpc, hdue, hirq⟩ := hs
    refine ⟨s, hrun, hpc, fun hnone => ?_⟩
    have hc := hnone firstTimer hdue
    rw [hpc, show (s.timers.dev firstTimer.dev).irqFlag = 0 from hirq] at hc
    exact hc.elim (by decide) id
  · obtain ⟨s, hrun, hs⟩ := Option.map_eq_some_iff.mp hpass
    simp only [Prod.mk.injEq] at hs
    obtain ⟨hpc, hexp, hserved⟩ := hs
    refine ⟨s, hrun, hpc, fun hall => ?_⟩
    have hmem := hall hpc firstTimer (List.mem_singleton.mpr rfl) hexp
    rw [hserved] at hmem
    cases hmem

end Start01
