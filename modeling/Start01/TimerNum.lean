/-
Start01/TimerNum.lean

The number of timers of a device.  `create_timer` counts the timers it hands out in
`timer_num`, which should be the number of those in use, so that one of eight is
found as long as there is one.

The count is never taken back: when a `ONE_TIME` timer runs out, `timer_srv` frees it
and leaves `timer_num` as it is, and then calls NULL.  And with eight timers in use
`create_timer` ends without a `return`.  In a run without either the count is right
(`timer_num_exact`).
-/
import Start01.TimerSteps

namespace Start01

open Run

/-! ### Effects on the devices -/

theorem TimerState.dev_setTimer (s : TimerState) (t : TID) (v : Timer) (e : Addr) :
    (s.setTimer t v).dev e = if e = t.dev then
      { s.dev t.dev with timerList := Function.update (s.dev t.dev).timerList t.id v }
      else s.dev e := by
  simp only [setTimer, setDev, Function.update_apply]

/-- **`create_timer`** on a device: it ends without a `return`, or returns NULL, or fills
a free timer and counts it. -/
theorem createTimer_some (s : TimerState) (d : Addr) (timeoutUs : UInt32)
    (timerCb arg : Option Addr) (flag : UInt8) :
    (¬ (s.dev d).timerNum.toNat < maxTimerNum ∧
      createTimer s (some d) timeoutUs timerCb arg flag = (none, s)) ∨
    ((s.dev d).timerNum.toNat < maxTimerNum ∧ getFreeTimerId (s.dev d) = none ∧
      createTimer s (some d) timeoutUs timerCb arg flag = (some none, s)) ∨
    ∃ id s', (s.dev d).timerNum.toNat < maxTimerNum ∧ getFreeTimerId (s.dev d) = some id ∧
      createTimer s (some d) timeoutUs timerCb arg flag = (some (some ⟨d, id⟩), s') ∧
      (∀ u, s'.timer u = if u = ⟨d, id⟩ then newTimer id timeoutUs timerCb arg flag
        else s.timer u) ∧
      ∀ e, (s'.dev e).irqFlag = (s.dev e).irqFlag ∧
        (s'.dev e).timerNum = if e = d then (s.dev d).timerNum + 1 else (s.dev e).timerNum := by
  by_cases hnum : (s.dev d).timerNum.toNat < maxTimerNum
  · cases hid : getFreeTimerId (s.dev d) with
    | none =>
      refine .inr (.inl ⟨hnum, rfl, ?_⟩)
      simp only [createTimer, if_pos hnum, hid]
    | some id =>
      refine .inr (.inr ⟨id, (createTimer s (some d) timeoutUs timerCb arg flag).2, hnum, rfl,
        ?_, ?_, ?_⟩)
      · simp only [createTimer, if_pos hnum, hid]
      · simp only [createTimer, if_pos hnum, hid]
        intro u
        refine Eq.trans (TimerState.timer_setDev_of_timerList ?_ u) (s.timer_setTimer ⟨d, id⟩ u _)
        rfl
      · simp only [createTimer, if_pos hnum, hid]
        intro e
        by_cases he : e = d
        · subst he
          simp [TimerState.setDev, TimerState.dev_setTimer]
        · simp [TimerState.setDev, TimerState.dev_setTimer, he]
  · refine .inl ⟨hnum, ?_⟩
    simp only [createTimer, if_neg hnum]

/-- The number of slots in use. -/
def TimerDevice.live (dev : TimerDevice) : ℕ :=
  (Finset.univ.filter fun i => (dev.timerList i).used = 1).card

/-- What is asked of a call of `create_timer`: a free slot if there is one, and
else NULL. -/
def CreateRight (s : TimerState) (d : Addr) (result : Option (Option TID)) : Prop :=
  if (s.dev d).live < maxTimerNum then
    ∃ t, result = some (some t) ∧ t.dev = d ∧ (s.timer t).used = 0
  else result = some none

/-- The step does not call `create_timer` on a device with all timers in use, and does not
free a `ONE_TIME` timer. -/
def NumSafe (s : TimerSys) : SysOp → Prop
  | .api (.createTimer (some d) _ _ _ _) => (s.timers.dev d).live < maxTimerNum
  | .main =>
    match s.pc with
    | .rearm d _ j _ => (s.timers.timer ⟨d, j⟩).flag ≠ oneTime
    | _ => True
  | _ => True

/-! ### The invariant -/

/-- Slots are in use or free, and the count is right. -/
structure Counted (s : TimerState) : Prop where
  used : ∀ t, (s.timer t).used = 0 ∨ (s.timer t).used = 1
  num : ∀ d, (s.dev d).timerNum.toNat = (s.dev d).live

/-- The same slots are in use, and the count is the same. -/
structure SameUse (s s' : TimerState) : Prop where
  used : ∀ t, (s'.timer t).used = (s.timer t).used
  num : ∀ d, (s'.dev d).timerNum = (s.dev d).timerNum

theorem live_congr {dev dev' : TimerDevice}
    (hused : ∀ i, (dev'.timerList i).used = (dev.timerList i).used) : dev'.live = dev.live := by
  unfold TimerDevice.live
  simp only [hused]

theorem Counted.of_sameUse {s s' : TimerState} (h : Counted s) (hsame : SameUse s s') :
    Counted s' where
  used t := by
    rw [hsame.used]
    exact h.used t
  num d := by
    rw [hsame.num, h.num]
    exact (live_congr fun i => hsame.used ⟨d, i⟩).symm

/-- One slot more is in use. -/
theorem live_insert {dev dev' : TimerDevice} {id : Fin maxTimerNum}
    (hid : (dev.timerList id).used = 0)
    (hused : ∀ i, (dev'.timerList i).used = if i = id then 1 else (dev.timerList i).used) :
    dev'.live = dev.live + 1 := by
  have hset : (Finset.univ.filter fun i => (dev'.timerList i).used = 1)
      = insert id (Finset.univ.filter fun i => (dev.timerList i).used = 1) := by
    ext i
    by_cases hi : i = id
    · simp [hused, hi]
    · simp [hused, hi]
  rw [TimerDevice.live, hset, Finset.card_insert_of_notMem (by simp [hid])]
  rfl

/-- With a free slot left, `create_timer` finds it. -/
theorem Counted.getFreeTimerId {s : TimerState} (h : Counted s) {d : Addr}
    (hlive : (s.dev d).live < maxTimerNum) : ∃ id, getFreeTimerId (s.dev d) = some id := by
  apply Option.ne_none_iff_exists'.mp
  intro hnone
  -- else all slots are in use
  have hall : (Finset.univ.filter fun i => ((s.dev d).timerList i).used = 1) = Finset.univ := by
    apply Finset.filter_true_of_mem
    intro i _
    have hi := List.find?_eq_none.mp hnone i (List.mem_finRange i)
    exact (h.used ⟨d, i⟩).resolve_left fun hz => hi (beq_iff_eq.mpr hz)
  rw [TimerDevice.live, hall, Finset.card_univ, Fintype.card_fin] at hlive
  exact absurd hlive (lt_irrefl _)

theorem getFreeTimerId_used {dev : TimerDevice} {id : Fin maxTimerNum}
    (h : getFreeTimerId dev = some id) : (dev.timerList id).used = 0 := by
  have hid := List.find?_some (p := fun i => (dev.timerList i).used == 0) h
  exact beq_iff_eq.mp hid

/-- A call of `create_timer` on a device with a free slot. -/
theorem Counted.create {s : TimerState} (h : Counted s) {d : Addr}
    (hlive : (s.dev d).live < maxTimerNum) (timeoutUs : UInt32) (timerCb arg : Option Addr)
    (flag : UInt8) :
    CreateRight s d (createTimer s (some d) timeoutUs timerCb arg flag).1 ∧
      Counted (createTimer s (some d) timeoutUs timerCb arg flag).2 := by
  have hnum : (s.dev d).timerNum.toNat < maxTimerNum := (h.num d).trans_lt hlive
  obtain ⟨id, hid⟩ := h.getFreeTimerId hlive
  obtain ⟨hc, -⟩ | ⟨-, hc, -⟩ | ⟨id', s', -, hid', heq, htimer, hdev⟩ :=
    createTimer_some s d timeoutUs timerCb arg flag
  · exact absurd hnum hc
  · exact absurd (hc.symm.trans hid) nofun
  · have hfree := getFreeTimerId_used hid'
    rw [heq]
    refine ⟨?_, ⟨fun u => ?_, fun e => ?_⟩⟩
    · rw [CreateRight, if_pos hlive]
      exact ⟨⟨d, id'⟩, rfl, rfl, hfree⟩
    · rw [htimer]
      by_cases hu : u = ⟨d, id'⟩
      · rw [if_pos hu]
        exact .inr rfl
      · rw [if_neg hu]
        exact h.used u
    · rw [(hdev e).2]
      have hused : ∀ i, ((s'.dev e).timerList i).used
          = if e = d ∧ i = id' then 1 else ((s.dev e).timerList i).used := by
        intro i
        rw [show (s'.dev e).timerList i = s'.timer ⟨e, i⟩ from rfl, htimer]
        by_cases hi : e = d ∧ i = id'
        · simp [hi, newTimer]
        · simp [hi, TimerState.timer]
      by_cases he : e = d
      · subst he
        have hins := @live_insert (s.dev e) (s'.dev e) id' hfree fun i => by
          simpa using hused i
        have hone : (1 : UInt32).toNat = 1 := rfl
        have hlt : maxTimerNum < 2 ^ 32 := by decide
        rw [if_pos rfl, hins, UInt32.toNat_add, hone, h.num, Nat.mod_eq_of_lt (by omega)]
      · rw [if_neg he, h.num]
        refine (live_congr fun i => ?_).symm
        rw [hused, if_neg fun hc => he hc.1]

/-! ### Steps that leave the count alone -/

theorem SameUse.setTimer {s : TimerState} {t : TID} {v : Timer}
    (hv : v.used = (s.timer t).used) : SameUse s (s.setTimer t v) where
  used u := by
    rw [TimerState.timer_setTimer]
    by_cases hu : u = t
    · rw [if_pos hu, hv, hu]
    · rw [if_neg hu]
  num d := by
    rw [TimerState.dev_setTimer]
    by_cases hd : d = t.dev
    · rw [if_pos hd, hd]
    · rw [if_neg hd]

theorem SameUse.refl (s : TimerState) : SameUse s s := ⟨fun _ => rfl, fun _ => rfl⟩

theorem SameUse.timerReset (s : TimerState) (timer : Option TID) :
    SameUse s (timerReset s timer).2 := by
  cases timer with
  | none => exact .refl s
  | some t =>
    dsimp only [Start01.timerReset]
    split
    · exact .setTimer rfl
    · exact .refl s

theorem SameUse.setSuspend (s : TimerState) (dev : Option Addr) (timer : Option TID) (v : UInt8) :
    SameUse s (setSuspend s dev timer v) := by
  unfold Start01.setSuspend
  split
  · exact .setTimer rfl
  · exact .refl s

@[simp] theorem Timer.count_used (t : Timer) (period : UInt32) :
    (t.count period).used = t.used := by
  unfold count
  split <;> rfl

@[simp] theorem Timer.count_fn (t : Timer) (period : UInt32) : (t.count period).fn = t.fn := by
  unfold count
  split <;> rfl

/-- A timer that has run out is not counted down. -/
theorem Timer.count_of_le {t : Timer} (h : t.timeoutUs ≤ 0) (period : UInt32) :
    t.count period = t := by
  unfold count
  exact if_neg fun hc => Int32.not_lt.mpr h hc.2

theorem timer_doTimer (s : TimerState) (d : Addr) (u : TID) :
    (doTimer s d).timer u
      = if u.dev = d then (s.timer u).count (s.dev d).periodUs else s.timer u := by
  unfold doTimer
  rw [TimerState.timer_setDev]
  by_cases hu : u.dev = d
  · rw [if_pos hu, if_pos hu, ← hu]
    rfl
  · rw [if_neg hu, if_neg hu]

theorem SameUse.doTimer (s : TimerState) (d : Addr) : SameUse s (doTimer s d) where
  used u := by
    rw [timer_doTimer]
    split
    · exact Timer.count_used _ _
    · rfl
  num e := by
    simp only [Start01.doTimer, TimerState.setDev, Function.update_apply]
    split
    · rename_i he
      rw [he]
    · rfl

theorem SameUse.clearIrq (d : Addr) (s : TimerState) : SameUse s (clearIrq d s) where
  used u := by rw [timer_clearIrq]
  num e := by
    simp only [Start01.clearIrq, TimerState.setDev, Function.update_apply]
    split
    · rename_i he
      rw [he]
    · rfl

/-! ### Runs -/

/-- Also, a timer to be re-armed has run out, and there is a function to call. -/
structure NumSound (s : TimerSys) : Prop where
  counted : Counted s.timers
  at_pc : match s.pc with
    | .rearm d _ j _ => (s.timers.timer ⟨d, j⟩).Due
    | .call d _ j _ => (s.timers.timer ⟨d, j⟩).fn ≠ none
    | .fault => False
    | _ => True

namespace NumSound

variable {L : TimerDevList} {s s' : TimerSys}

theorem api (h : NumSound s) {c : ApiCall} (hsafe : NumSafe s (.api c))
    (heq : s.api c = some s') : NumSound s' := by
  have hc : Counted (apiCall s.timers c) := by
    cases c with
    | createTimer dev timeoutUs timerCb arg flag =>
      cases dev with
      | none => exact h.counted
      | some d => exact (h.counted.create hsafe timeoutUs timerCb arg flag).2
    | timerReset timer => exact h.counted.of_sameUse (.timerReset _ timer)
    | timerStart dev timer => exact h.counted.of_sameUse (.setSuspend _ dev timer 0)
    | timerStop dev timer => exact h.counted.of_sameUse (.setSuspend _ dev timer 1)
  obtain ⟨timers, pc, expired, served⟩ := s
  cases pc with
  | idle | called =>
    obtain rfl := Option.some.inj heq
    exact ⟨hc, trivial⟩
  | _ => cases heq

theorem tick (h : NumSound s) (d : Addr) : NumSound (s.tick d) := by
  refine ⟨h.counted.of_sameUse (.doTimer _ d), ?_⟩
  have hpc := h.at_pc
  obtain ⟨timers, pc, expired, served⟩ := s
  cases pc with
  | rearm e ds j js =>
    show ((doTimer timers d).timer ⟨e, j⟩).Due
    rw [timer_doTimer]
    split
    · rw [Timer.count_of_le hpc.2.1]
      exact hpc
    · exact hpc
  | call e ds j js =>
    show ((doTimer timers d).timer ⟨e, j⟩).fn ≠ none
    rw [timer_doTimer]
    split
    · rw [Timer.count_fn]
      exact hpc
    · exact hpc
  | fault => exact hpc
  | _ => trivial

theorem main (h : NumSound s) (hsafe : NumSafe s .main) (heq : s.main = some s') :
    NumSound s' := by
  obtain ⟨hcount, hpc⟩ := h
  obtain ⟨timers, pc, expired, served⟩ := s
  cases pc with
  | idle | fault => cases heq
  | device ds =>
    cases ds with
    | nil =>
      obtain rfl := Option.some.inj heq
      exact ⟨hcount, trivial⟩
    | cons d ds =>
      obtain rfl := Option.some.inj heq
      refine ⟨hcount, ?_⟩
      dsimp only [TimerSys.goto]
      split_ifs <;> trivial
  | timerNum d ds =>
    obtain rfl := Option.some.inj heq
    refine ⟨hcount, ?_⟩
    dsimp only [TimerSys.goto]
    split_ifs <;> trivial
  | slots d ds js =>
    cases js with
    | nil =>
      obtain rfl := Option.some.inj heq
      exact ⟨hcount, trivial⟩
    | cons j js =>
      obtain rfl := Option.some.inj heq
      refine ⟨hcount, ?_⟩
      dsimp only [TimerSys.goto]
      split_ifs with hdue
      · exact hdue
      · trivial
  | rearm d ds j js =>
    obtain rfl := Option.some.inj heq
    -- only a `ONE_TIME` timer is freed
    obtain ⟨hused, hfn, -, -⟩ := Timer.rearm_of_ne hsafe
    refine ⟨hcount.of_sameUse (.setTimer hused), ?_⟩
    dsimp only
    rw [TimerState.timer_setTimer, if_pos rfl, hfn]
    exact hpc.2.2
  | call d ds j js =>
    obtain ⟨f, hf⟩ := Option.ne_none_iff_exists'.mp hpc
    have hf' : (timers.timer ⟨d, j⟩).fn = some f := hf
    simp only [TimerSys.main, hf'] at heq
    obtain rfl := Option.some.inj heq
    exact ⟨hcount, trivial⟩
  | called d ds js =>
    obtain rfl := Option.some.inj heq
    exact ⟨hcount, trivial⟩
  | clear d ds =>
    obtain rfl := Option.some.inj heq
    exact ⟨hcount.of_sameUse (.clearIrq d _), trivial⟩

/-- **Step.** -/
theorem step (h : NumSound s) {op : SysOp} (hsafe : NumSafe s op)
    (heq : sysStep L s op = some s') : NumSound s' := by
  cases op with
  | enter =>
    obtain ⟨timers, pc, expired, served⟩ := s
    cases pc with
    | idle =>
      obtain rfl := Option.some.inj heq
      exact ⟨h.counted, trivial⟩
    | _ => cases heq
  | main => exact h.main hsafe heq
  | api c => exact h.api hsafe heq
  | tick d =>
    obtain rfl := Option.some.inj heq
    exact h.tick d

theorem reset (periodUs : UInt32) : NumSound (.reset periodUs) := by
  refine ⟨⟨fun _ => .inl rfl, fun d => ?_⟩, trivial⟩
  have hnone : (Finset.univ.filter fun i =>
      ((((TimerState.reset periodUs).dev d).timerList i).used) = 1) = ∅ :=
    Finset.filter_false_of_mem fun i _ => by
      show (0 : UInt8) ≠ 1
      decide
  exact (congrArg Finset.card hnone).symm

end NumSound

/-- **The number of timers**, as far as it is right.  In every run on devices after
`timer_init_cfg` that calls `create_timer` only for devices with a free timer and
frees no `ONE_TIME` timer, `timer_num` is the number of slots in use, `timer_srv`
does not fault, and a further such call returns a free slot. -/
theorem timer_num_exact (L : TimerDevList) (periodUs : UInt32) {ops : List SysOp} {s : TimerSys}
    (hsafe : Meets (sysStep L) NumSafe (.reset periodUs) ops)
    (hrun : exec (sysStep L) (.reset periodUs) ops = some s) :
    (∀ d, (s.timers.dev d).timerNum.toNat = (s.timers.dev d).live) ∧ s.pc ≠ .fault ∧
      ∀ d timeoutUs timerCb arg flag,
        NumSafe s (.api (.createTimer (some d) timeoutUs timerCb arg flag)) →
        CreateRight s.timers d (createTimer s.timers (some d) timeoutUs timerCb arg flag).1 := by
  have hs : NumSound s := exec_invariant (P := NumSound) (fun _ _ _ h hC heq => h.step hC heq)
    (NumSound.reset periodUs) hsafe hrun
  refine ⟨hs.counted.num, fun hpc => ?_, fun d timeoutUs timerCb arg flag hlive => ?_⟩
  · have hfault := hs.at_pc
    rw [hpc] at hfault
    exact hfault
  · exact (hs.counted.create hlive timeoutUs timerCb arg flag).1

instance (s : TimerSys) : ∀ op, Decidable (NumSafe s op)
  | .api (.createTimer (some d) _ _ _ _) =>
      inferInstanceAs (Decidable ((s.timers.dev d).live < maxTimerNum))
  | .api (.createTimer none _ _ _ _) | .api (.timerReset _) | .api (.timerStart _ _)
  | .api (.timerStop _ _) | .enter | .tick _ => inferInstanceAs (Decidable True)
  | .main => by
    unfold NumSafe
    cases s.pc <;> infer_instance

/-- A timer of 5 ms is created, runs out, and is served by a pass. -/
def oneTimerPass (flag : UInt8) (steps : ℕ) : List SysOp :=
  [.api (.createTimer (some 2000) 5000 (some 77) (some 5) flag), .tick 2000, .enter] ++
    List.replicate steps .main

theorem timer_num_exact_loop : ∃ s, exec (sysStep oneTimerDevice) (.reset 5000)
    (oneTimerPass loop 16) = some s ∧ s.pc ≠ .fault ∧
    (s.timers.dev 2000).timerNum.toNat = (s.timers.dev 2000).live := by
  have hsome : (exec (sysStep oneTimerDevice) (.reset 5000) (oneTimerPass loop 16)).isSome := by
    decide +kernel
  obtain ⟨s, hrun⟩ := Option.isSome_iff_exists.mp hsome
  obtain ⟨hnum, hpc, -⟩ := timer_num_exact oneTimerDevice 5000 (by decide +kernel) hrun
  exact ⟨s, hrun, hpc, hnum 2000⟩

/-- Nine timers for one device. -/
def nineTimers : List SysOp :=
  List.replicate 8 (.api (.createTimer (some 2000) 5000 (some 77) none loop))

/-- A `ONE_TIME` timer that is served is counted on, and the pass faults; the ninth call of
`create_timer` ends without a `return`. -/
theorem timer_num_drifts :
    (∃ s, exec (sysStep oneTimerDevice) (.reset 5000) (oneTimerPass oneTime 4) = some s ∧
      (s.timers.dev 2000).timerNum = 1 ∧ (s.timers.dev 2000).live = 0 ∧
      s.main.map TimerSys.pc = some .fault) ∧
    (∃ s, exec (sysStep oneTimerDevice) (.reset 5000) nineTimers = some s ∧
      (s.timers.dev 2000).live = 8 ∧
      ¬ CreateRight s.timers 2000 (createTimer s.timers (some 2000) 5000 (some 77) none loop).1) := by
  have hone : (exec (sysStep oneTimerDevice) (.reset 5000) (oneTimerPass oneTime 4)).map
      (fun s => ((s.timers.dev 2000).timerNum, (s.timers.dev 2000).live, s.main.map TimerSys.pc))
      = some (1, 0, some .fault) := by
    decide +kernel
  have hnine : (exec (sysStep oneTimerDevice) (.reset 5000) nineTimers).map
      (fun s => ((s.timers.dev 2000).live,
        (createTimer s.timers (some 2000) 5000 (some 77) none loop).1))
      = some (8, none) := by
    decide +kernel
  constructor
  · obtain ⟨s, hrun, hs⟩ := Option.map_eq_some_iff.mp hone
    simp only [Prod.mk.injEq] at hs
    exact ⟨s, hrun, hs⟩
  · obtain ⟨s, hrun, hs⟩ := Option.map_eq_some_iff.mp hnine
    obtain ⟨hlive, hret⟩ := Prod.mk.injEq .. ▸ hs
    refine ⟨s, hrun, hlive, fun hright => ?_⟩
    rw [CreateRight, hlive, if_neg (show ¬ 8 < maxTimerNum from lt_irrefl _), hret] at hright
    cases hright

end Start01
