/-
Start01/TimerSrv.lean

What `timer_srv` calls.  A timer created by `create_timer(dev, T, cb, arg, flag)`
should be served by one call `cb(tid, arg)`, where `tid` is what `create_timer`
returned; a `LOOP` timer is reloaded and a `ONE_TIME` timer freed.

The call that is made has `timer_dev_list + j` as its first argument, which is no
timer's address, and a `ONE_TIME` timer is freed *before* its function is read, so
that NULL is called.  A run is therefore right if and only if it serves nothing,
and that can be told from the states in which `timer_srv` is entered
(`timerSrv_right_iff`).
-/
import Start01.Timer

namespace Start01

open Run

variable {L : TimerDevList} {proc : TimeOutProc}

/-! ### Rules for the loops -/

/-- The state reached is in `I`, and the timers served are in `Q`. -/
def SrvResult.Good (I : TimerState → Prop) (Q : Service → Prop) (r : SrvResult) : Prop :=
  (∀ s, r.1 = some s → I s) ∧ ∀ sv ∈ r.2, Q sv

namespace SrvResult

variable {I : TimerState → Prop} {Q : Service → Prop}

theorem andThen_of_some {r : SrvResult} {s : TimerState} (h : r.1 = some s)
    (k : TimerState → SrvResult) : r.andThen k = ((k s).1, r.2 ++ (k s).2) := by
  unfold andThen
  rw [h]

theorem andThen_of_none {r : SrvResult} (h : r.1 = none) (k : TimerState → SrvResult) :
    r.andThen k = r := by
  unfold andThen
  rw [h]

theorem Good.andThen {r : SrvResult} {k : TimerState → SrvResult} (h : r.Good I Q)
    (hk : ∀ s, I s → (k s).Good I Q) : (r.andThen k).Good I Q := by
  cases hr : r.1 with
  | none =>
    rw [andThen_of_none hr]
    exact h
  | some s =>
    obtain ⟨hI, hQ⟩ := hk s (h.1 s hr)
    rw [andThen_of_some hr]
    refine ⟨hI, fun sv hsv => ?_⟩
    rcases List.mem_append.mp hsv with hsv | hsv
    · exact h.2 sv hsv
    · exact hQ sv hsv

/-- What was served stays served. -/
theorem andThen_ne_nil {r : SrvResult} (h : r.2 ≠ []) (k : TimerState → SrvResult) :
    (r.andThen k).2 ≠ [] := by
  cases hr : r.1 with
  | none =>
    rw [andThen_of_none hr]
    exact h
  | some s =>
    rw [andThen_of_some hr]
    exact fun hnil => h (List.append_eq_nil_iff.mp hnil).1

end SrvResult

open SrvResult

theorem good_nil {I : TimerState → Prop} {Q : Service → Prop} {s : TimerState} (hs : I s) :
    SrvResult.Good I Q (some s, []) :=
  ⟨fun _ h => Option.some.inj h ▸ hs, fun _ h => absurd h List.not_mem_nil⟩

/-- **Loop rule.**  What the body of the inner loop keeps, and what holds of every
timer it serves, carry over to a whole pass. -/
theorem timerSrv_good {I : TimerState → Prop} {Q : Service → Prop}
    (hbody : ∀ s, ∀ d ∈ L.devs, ∀ j, I s → (srvTimer L proc d j s).Good I Q)
    (hclear : ∀ s d, I s → I (clearIrq d s)) {s : TimerState} (hs : I s) :
    (timerSrv L proc s).Good I Q := by
  -- one induction for each loop
  have htimers : ∀ d ∈ L.devs, ∀ js s, I s → (srvTimers L proc d js s).Good I Q := by
    intro d hd js
    induction js with
    | nil => exact fun s hs => good_nil hs
    | cons j js ih => exact fun s hs => (hbody s d hd j hs).andThen ih
  have hdevice : ∀ d ∈ L.devs, ∀ s, I s → (srvDevice L proc d s).Good I Q := by
    intro d hd s hs
    refine SrvResult.Good.andThen ?_ fun s' hs' => good_nil (hclear s' d hs')
    split
    · exact htimers d hd _ s hs
    · exact good_nil hs
  have hdevices : ∀ ds, (∀ d ∈ ds, d ∈ L.devs) → ∀ s, I s → (srvDevices L proc ds s).Good I Q := by
    intro ds
    induction ds with
    | nil => exact fun _ s hs => good_nil hs
    | cons d ds ih =>
      intro hds s hs
      obtain ⟨hd, hds⟩ := List.forall_mem_cons.mp hds
      exact (hdevice d hd s hs).andThen (ih hds)
  exact hdevices L.devs (fun _ h => h) s hs

/-! ### When nothing is served -/

/-- `timer_srv` finds nothing to do on the device. -/
def TimerDevice.Quiet (dev : TimerDevice) : Prop :=
  dev.irqFlag ≠ 0 ∧ dev.timerNum > 0 → ∀ j, ¬ (dev.timerList j).Due

theorem srvTimer_of_not_due {d : Addr} {j : Fin maxTimerNum} {s : TimerState}
    (h : ¬ (s.timer ⟨d, j⟩).Due) : srvTimer L proc d j s = (some s, []) := by
  unfold srvTimer
  exact if_neg h

theorem srvTimers_of_forall_not_due {d : Addr} {js : List (Fin maxTimerNum)} {s : TimerState}
    (h : ∀ j ∈ js, ¬ (s.timer ⟨d, j⟩).Due) : srvTimers L proc d js s = (some s, []) := by
  induction js with
  | nil => rfl
  | cons j js ih =>
    obtain ⟨hj, hjs⟩ := List.forall_mem_cons.mp h
    rw [srvTimers, srvTimer_of_not_due hj, andThen_of_some rfl, ih hjs]
    rfl

theorem srvTimers_ne_nil {d : Addr} {js : List (Fin maxTimerNum)} {s : TimerState}
    {j : Fin maxTimerNum} (hj : j ∈ js) (hdue : (s.timer ⟨d, j⟩).Due) :
    (srvTimers L proc d js s).2 ≠ [] := by
  induction js with
  | nil => exact absurd hj List.not_mem_nil
  | cons i js ih =>
    by_cases hi : (s.timer ⟨d, i⟩).Due
    · apply andThen_ne_nil
      unfold srvTimer
      rw [if_pos hi]
      exact List.cons_ne_nil _ _
    · -- the head is passed over, and the state is the same
      rw [srvTimers, srvTimer_of_not_due hi, andThen_of_some rfl]
      rcases List.mem_cons.mp hj with rfl | hj
      · exact absurd hdue hi
      · exact ih hj

theorem srvDevice_of_quiet {d : Addr} {s : TimerState} (h : (s.dev d).Quiet) :
    srvDevice L proc d s = (some (clearIrq d s), []) := by
  unfold srvDevice
  dsimp only
  split
  · rename_i hirq
    rw [srvTimers_of_forall_not_due fun j _ => h hirq j]
    rfl
  · rfl

theorem srvDevice_ne_nil {d : Addr} {s : TimerState} (h : ¬ (s.dev d).Quiet) :
    (srvDevice L proc d s).2 ≠ [] := by
  simp only [TimerDevice.Quiet, Classical.not_imp, not_forall, not_not] at h
  obtain ⟨hirq, j, hdue⟩ := h
  apply andThen_ne_nil
  rw [if_pos hirq]
  exact srvTimers_ne_nil (List.mem_finRange j) hdue

theorem clearIrq_self (d : Addr) (s : TimerState) : ((clearIrq d s).dev d).irqFlag = 0 := by
  simp [clearIrq, TimerState.setDev]

theorem clearIrq_of_ne {d e : Addr} (s : TimerState) (h : e ≠ d) :
    (clearIrq d s).dev e = s.dev e := by
  simp [clearIrq, TimerState.setDev, h]

/-- **A pass serves nothing** if and only if every device is quiet. -/
theorem srvDevices_eq_nil_iff {ds : List Addr} :
    ∀ {s : TimerState}, (srvDevices L proc ds s).2 = [] ↔ ∀ d ∈ ds, (s.dev d).Quiet := by
  induction ds with
  | nil => exact fun {s} => ⟨fun _ d hd => absurd hd List.not_mem_nil, fun _ => rfl⟩
  | cons d ds ih =>
    intro s
    rw [List.forall_mem_cons]
    by_cases hd : (s.dev d).Quiet
    · rw [srvDevices, srvDevice_of_quiet hd, andThen_of_some rfl, List.nil_append, ih]
      constructor
      · refine fun h => ⟨hd, fun e he => ?_⟩
        -- clearing `irq_flag` leaves the other devices as they are
        by_cases hed : e = d
        · exact hed ▸ hd
        · rw [← clearIrq_of_ne s hed]
          exact h e he
      · rintro ⟨-, h⟩ e he
        by_cases hed : e = d
        · subst hed
          exact fun hirq => absurd (clearIrq_self e s) hirq.1
        · rw [clearIrq_of_ne s hed]
          exact h e he
    · constructor
      · exact fun h => absurd h (andThen_ne_nil (srvDevice_ne_nil hd) _)
      · exact fun h => absurd h.1 hd

/-! ### What is called -/

/-- Every timer in use holds the arguments of the `create_timer` call it comes from. -/
def TimerState.Consistent (s : TimerState) : Prop :=
  ∀ t, (s.timer t).used ≠ 0 →
    s.made t = some ⟨(s.timer t).fn, (s.timer t).privateArg, (s.timer t).flag⟩

/-- What a service should be: the one call is to the function given to
`create_timer`, with the timer it returned and the argument given to it; a `LOOP`
timer is reloaded, and a `ONE_TIME` timer is out of use. -/
def Service.Right (sv : Service) : Prop :=
  ∃ m, sv.made = some m ∧ sv.call = ⟨m.timerCb, sv.timer.addr, m.arg⟩ ∧
    (m.flag = loop → sv.left.timeoutUs = sv.tested.reloadTimeoutUs) ∧
    (m.flag = oneTime → sv.left.used = 0)

/-- What a service is: the first argument is a place in `timer_dev_list`.  Function
and argument are right unless the timer is a `ONE_TIME` one, for which NULL is
called; a `LOOP` timer is reloaded, and a `ONE_TIME` timer is out of use. -/
def Service.Actual (L : TimerDevList) (sv : Service) : Prop :=
  sv.timer.dev ∈ L.devs ∧ sv.call.tid = L.base + 4 * sv.timer.id ∧
    ∃ m, sv.made = some m ∧
      (m.flag ≠ oneTime → sv.call.fn = m.timerCb ∧ sv.call.arg = m.arg) ∧
      (m.flag = loop → sv.left.timeoutUs = sv.tested.reloadTimeoutUs) ∧
      (m.flag = oneTime → sv.call.fn = none ∧ sv.call.arg = none ∧ sv.left.used = 0)

/-- No place `timer_dev_list + j` is the address of a timer: eight places reach past
the end of the array, but not as far as the timers of a device behind it. -/
theorem TimerDevList.base_add_ne_addr (L : TimerDevList) {t : TID} (ht : t.dev ∈ L.devs)
    (j : Fin maxTimerNum) : L.base + 4 * (j : ℕ) ≠ t.addr := by
  have key : ∀ b d i j : ℕ, i < 8 → j < 8 → d + 280 ≤ b ∨ b + 16 ≤ d →
      b + 4 * j ≠ d + 76 + 24 * i := by
    intro b d i j hi hj hapart
    omega
  exact key L.base t.dev t.id j t.id.isLt j.isLt (L.apart t.dev ht)

/-- So no service is right. -/
theorem Service.Actual.not_right {sv : Service} (h : sv.Actual L) : ¬ sv.Right := by
  rintro ⟨m, -, hcall, -⟩
  obtain ⟨hdev, htid, -⟩ := h
  rw [hcall] at htid
  exact L.base_add_ne_addr hdev sv.timer.id htid.symm

/-! ### The invariant -/

/-- A write that keeps a timer's arguments, or puts it out of use, keeps the state
consistent. -/
theorem TimerState.Consistent.setTimer {s : TimerState} (h : s.Consistent) {t : TID} {v : Timer}
    (hv : v.used ≠ 0 → (s.timer t).used ≠ 0 ∧ v.fn = (s.timer t).fn ∧
      v.privateArg = (s.timer t).privateArg ∧ v.flag = (s.timer t).flag) :
    (s.setTimer t v).Consistent := by
  intro u hu
  rw [made_setTimer]
  rw [timer_setTimer] at hu ⊢
  by_cases hut : u = t
  · subst hut
    rw [if_pos rfl] at hu ⊢
    obtain ⟨hused, hfn, harg, hflag⟩ := hv hu
    rw [hfn, harg, hflag]
    exact h u hused
  · rw [if_neg hut] at hu ⊢
    exact h u hu

/-- A write beside the arguments of the timers keeps the state consistent. -/
theorem TimerState.Consistent.of_timers {s s' : TimerState} (h : s.Consistent)
    (hmade : s'.made = s.made)
    (htimer : ∀ u, (s'.timer u).used = (s.timer u).used ∧ (s'.timer u).fn = (s.timer u).fn ∧
      (s'.timer u).privateArg = (s.timer u).privateArg ∧
      (s'.timer u).flag = (s.timer u).flag) : s'.Consistent := by
  intro u hu
  obtain ⟨hused, hfn, harg, hflag⟩ := htimer u
  rw [hmade, hfn, harg, hflag]
  exact h u (hused ▸ hu)

theorem TimerState.Consistent.createTimer {s : TimerState} (h : s.Consistent) (dev : Option Addr)
    (timeoutUs : UInt32) (timerCb arg : Option Addr) (flag : UInt8) :
    (createTimer s dev timeoutUs timerCb arg flag).2.Consistent := by
  rcases createTimer_cases s dev timeoutUs timerCb arg flag with
    ⟨-, heq⟩ | ⟨t, -, -, -, htimer, hmade⟩
  · rw [heq]
    exact h
  · intro u hu
    rw [htimer] at hu ⊢
    rw [hmade]
    by_cases hut : u = t
    · -- the new timer holds what the ghost records
      subst hut
      rw [if_pos rfl, Function.update_self]
      rfl
    · rw [if_neg hut] at hu ⊢
      rw [Function.update_of_ne hut]
      exact h u hu

theorem TimerState.Consistent.timerReset {s : TimerState} (h : s.Consistent) (timer : Option TID) :
    (timerReset s timer).2.Consistent := by
  unfold Start01.timerReset
  split
  · exact h
  · dsimp only
    split
    · exact h.setTimer fun hu => ⟨hu, rfl, rfl, rfl⟩
    · exact h

theorem TimerState.Consistent.setSuspend {s : TimerState} (h : s.Consistent) (dev : Option Addr)
    (timer : Option TID) (v : UInt8) : (setSuspend s dev timer v).Consistent := by
  unfold Start01.setSuspend
  split
  · exact h.setTimer fun hu => ⟨hu, rfl, rfl, rfl⟩
  · exact h

/-- Each call a timer function may make keeps the state consistent. -/
theorem TimerState.Consistent.apiCall {s : TimerState} (h : s.Consistent) (c : ApiCall) :
    (apiCall s c).Consistent := by
  cases c with
  | createTimer dev timeoutUs timerCb arg flag => exact h.createTimer dev timeoutUs timerCb arg flag
  | timerReset timer => exact h.timerReset timer
  | timerStart dev timer => exact h.setSuspend dev timer 0
  | timerStop dev timer => exact h.setSuspend dev timer 1

theorem TimerState.Consistent.foldl_apiCall {cs : List ApiCall} :
    ∀ {s : TimerState}, s.Consistent → (cs.foldl Start01.apiCall s).Consistent := by
  induction cs with
  | nil => exact fun h => h
  | cons c cs ih => exact fun h => ih (h.apiCall c)

theorem TimerState.Consistent.doTimer {s : TimerState} (h : s.Consistent) (d : Addr) :
    (doTimer s d).Consistent := by
  refine h.of_timers rfl fun u => ?_
  have hcount : ∀ t : Timer, ∀ p, (t.count p).used = t.used ∧ (t.count p).fn = t.fn ∧
      (t.count p).privateArg = t.privateArg ∧ (t.count p).flag = t.flag := by
    intro t p
    unfold Timer.count
    split <;> exact ⟨rfl, rfl, rfl, rfl⟩
  unfold Start01.doTimer
  rw [timer_setDev]
  split
  · rename_i hu
    subst hu
    exact hcount _ _
  · exact ⟨rfl, rfl, rfl, rfl⟩

theorem TimerState.Consistent.clearIrq {s : TimerState} (h : s.Consistent) (d : Addr) :
    (clearIrq d s).Consistent := by
  refine h.of_timers rfl fun u => ?_
  rw [timer_clearIrq]
  exact ⟨rfl, rfl, rfl, rfl⟩

theorem srvTimer_of_due {s : TimerState} {d : Addr} {j : Fin maxTimerNum} {t : Timer}
    (ht : s.timer ⟨d, j⟩ = t) (hdue : t.Due) :
    srvTimer L proc d j s =
      (t.rearm.fn.map fun f =>
          (proc f (L.base + 4 * j) t.rearm.privateArg (s.setTimer ⟨d, j⟩ t.rearm)).foldl apiCall
            (s.setTimer ⟨d, j⟩ t.rearm),
        [⟨⟨d, j⟩, s.made ⟨d, j⟩, t, t.rearm,
          ⟨t.rearm.fn, L.base + 4 * j, t.rearm.privateArg⟩⟩]) := by
  have hself : (s.setTimer ⟨d, j⟩ t.rearm).timer ⟨d, j⟩ = t.rearm := by
    rw [TimerState.timer_setTimer, if_pos rfl]
  unfold srvTimer
  simp only [ht, if_pos hdue, hself]
  cases t.rearm.fn <;> rfl

theorem Timer.rearm_of_oneTime {t : Timer} (h : t.flag = oneTime) : t.rearm = timerVarInit t :=
  if_pos h

theorem Timer.rearm_of_loop {t : Timer} (h : t.flag = loop) :
    t.rearm = { t with timeoutUs := t.reloadTimeoutUs } := by
  unfold rearm
  rw [if_neg (by rw [h]; decide), if_pos h]

/-- Only a `ONE_TIME` timer loses its arguments. -/
theorem Timer.rearm_of_ne {t : Timer} (h : t.flag ≠ oneTime) :
    t.rearm.used = t.used ∧ t.rearm.fn = t.fn ∧ t.rearm.privateArg = t.privateArg ∧
      t.rearm.flag = t.flag := by
  unfold rearm
  rw [if_neg h]
  split <;> exact ⟨rfl, rfl, rfl, rfl⟩

/-- **Serving one timer.**  The state stays consistent, and the service is what
`Service.Actual` says. -/
theorem srvTimer_good {s : TimerState} (hs : s.Consistent) {d : Addr} (hd : d ∈ L.devs)
    (j : Fin maxTimerNum) :
    (srvTimer L proc d j s).Good TimerState.Consistent (Service.Actual L) := by
  obtain ⟨t, ht⟩ : ∃ t, s.timer ⟨d, j⟩ = t := ⟨_, rfl⟩
  by_cases hdue : t.Due
  · have hmade := hs ⟨d, j⟩ (ht ▸ hdue.1)
    rw [ht] at hmade
    -- re-arming frees the timer or keeps its arguments
    have hcons : (s.setTimer ⟨d, j⟩ t.rearm).Consistent := by
      refine hs.setTimer ?_
      rw [ht]
      by_cases hone : t.flag = oneTime
      · rw [Timer.rearm_of_oneTime hone]
        exact fun hu => absurd rfl hu
      · obtain ⟨-, hfn, harg, hflag⟩ := Timer.rearm_of_ne hone
        exact fun _ => ⟨hdue.1, hfn, harg, hflag⟩
    rw [srvTimer_of_due ht hdue]
    constructor
    · intro s' hs'
      obtain ⟨f, -, rfl⟩ := Option.map_eq_some_iff.mp hs'
      exact hcons.foldl_apiCall
    · intro sv hsv
      obtain rfl := List.mem_singleton.mp hsv
      refine ⟨hd, rfl, _, hmade, ?_, ?_, ?_⟩
      · intro hne
        obtain ⟨-, hfn, harg, -⟩ := Timer.rearm_of_ne hne
        exact ⟨hfn, harg⟩
      · intro hloop
        show t.rearm.timeoutUs = _
        rw [Timer.rearm_of_loop hloop]
      · intro hone
        show t.rearm.fn = none ∧ t.rearm.privateArg = none ∧ t.rearm.used = 0
        rw [Timer.rearm_of_oneTime hone]
        exact ⟨rfl, rfl, rfl⟩
  · rw [srvTimer_of_not_due (ht ▸ hdue)]
    exact good_nil hs

/-! ### Runs -/

/-- The pass that the step makes, if any, finds every device quiet. -/
def ServesNothing (L : TimerDevList) (st : Option TimerState) (op : TimerOp) : Prop :=
  ∀ s, st = some s → op = .timerSrv → ∀ d ∈ L.devs, (s.dev d).Quiet

/-- Short of a fault the state is consistent. -/
def Sound (st : Option TimerState) : Prop := ∀ s, st = some s → s.Consistent

/-- **Step.** -/
theorem timerStep_good {st st' : Option TimerState} {op : TimerOp} {o : List Service}
    (hst : Sound st) (h : timerStep L proc st op = some (st', o)) :
    Sound st' ∧ (∀ sv ∈ o, sv.Actual L) ∧
      (o = [] ↔ ServesNothing L st op) := by
  cases st with
  | none =>
    obtain ⟨rfl, rfl⟩ := Prod.mk.injEq .. ▸ Option.some.inj h
    exact ⟨hst, fun _ h => absurd h List.not_mem_nil, ⟨fun _ s hs => (nomatch hs), fun _ => rfl⟩⟩
  | some s =>
    have hs := hst s rfl
    -- a step that is no pass serves nothing
    have hother : ∀ {s' : TimerState}, s'.Consistent → op ≠ .timerSrv →
        (some s', ([] : List Service)) = (st', o) → Sound st' ∧
          (∀ sv ∈ o, sv.Actual L) ∧ (o = [] ↔ ServesNothing L (some s) op) := by
      intro s' hs' hop heq
      obtain ⟨rfl, rfl⟩ := Prod.mk.injEq .. ▸ heq
      exact ⟨fun _ h => Option.some.inj h ▸ hs', fun _ h => absurd h List.not_mem_nil,
        ⟨fun _ _ _ hsrv => absurd hsrv hop, fun _ => rfl⟩⟩
    cases op with
    | api c => exact hother (hs.apiCall c) nofun (Option.some.inj h)
    | doTimer d => exact hother (hs.doTimer d) nofun (Option.some.inj h)
    | timerSrv =>
      obtain ⟨hcons, hact⟩ := @timerSrv_good L proc _ _ (fun s d hd j hs => srvTimer_good hs hd j)
        (fun s d hs => hs.clearIrq d) s hs
      have heq : timerSrv L proc s = (st', o) := Option.some.inj h
      rw [heq] at hcons hact
      refine ⟨hcons, hact, ?_⟩
      have hnil := @srvDevices_eq_nil_iff L proc L.devs s
      rw [show srvDevices L proc L.devs s = (st', o) from heq] at hnil
      rw [hnil]
      constructor
      · rintro hq s' hs' -
        exact Option.some.inj hs' ▸ hq
      · exact fun hq => hq s rfl rfl

/-- **Services.**  In a run from a consistent state, every service is as
`Service.Actual` says; so all services are right if and only if none is made, which
can be told from the states in which `timer_srv` is entered. -/
theorem timerSrv_right_iff {s : TimerState} {st' : Option TimerState} {ops : List TimerOp}
    {services : List Service} (hs : s.Consistent)
    (h : run (timerStep L proc) (some s) ops = some (st', services)) :
    ((∀ sv ∈ services, sv.Right) ↔ Along (timerStep L proc) (ServesNothing L) (some s) ops) ∧
      ∀ sv ∈ services, sv.Actual L ∧ ¬ sv.Right := by
  have hst : Sound (some s) := fun _ h => Option.some.inj h ▸ hs
  have hstep : ∀ st op st' o, Sound st → timerStep L proc st op = some (st', o) →
      Sound st' ∧ ∀ sv ∈ o, sv.Actual L := by
    intro st op st' o hst h
    obtain ⟨hst', hact, -⟩ := timerStep_good hst h
    exact ⟨hst', hact⟩
  constructor
  · refine run_forall_iff (fun st op st' o (hst : Sound st) h => ?_) hst h
    obtain ⟨hst', hact, hnil⟩ := timerStep_good hst h
    refine ⟨hst', ?_⟩
    -- no service is right, so all are right only if there is none
    rw [← hnil]
    constructor
    · refine fun hright => List.eq_nil_iff_forall_not_mem.mpr fun sv hsv => ?_
      exact (hact sv hsv).not_right (hright sv hsv)
    · rintro rfl
      exact fun _ h => absurd h List.not_mem_nil
  · intro sv hsv
    have hact := (run_invariant hstep hst h).2 sv hsv
    exact ⟨hact, hact.not_right⟩

theorem TimerState.Consistent.reset (periodUs : UInt32) : (TimerState.reset periodUs).Consistent :=
  fun _ hu => absurd rfl hu

/-- `timer_dev_list` at address 1000 with one device, at 2000. -/
def oneTimerDevice : TimerDevList where
  base := 1000
  devs := [2000]
  length_le := by decide
  apart := by decide

/-- A timer of 5 ms with function 77 and argument 5, one tick of 5 ms, one pass; the
function calls nothing. -/
def oneTimerRun (flag : UInt8) : Option (Option TimerState × List Service) :=
  run (timerStep oneTimerDevice fun _ _ _ _ => []) (some (.reset 5000))
    [.api (.createTimer (some 2000) 5000 (some 77) (some 5) flag), .doTimer 2000, .timerSrv]

theorem timerSrv_right_iff_loop :
    ∃ st sv, oneTimerRun loop = some (st, [sv]) ∧ sv.Actual oneTimerDevice ∧ ¬ sv.Right := by
  obtain ⟨st, sv, hrun⟩ : ∃ st sv, oneTimerRun loop = some (st, [sv]) := ⟨_, _, rfl⟩
  exact ⟨st, sv, hrun, (timerSrv_right_iff (.reset 5000) hrun).2 sv (List.mem_singleton.mpr rfl)⟩

/-- The `LOOP` timer is at 2076, and is served with the address 1000 of
`timer_dev_list`; for the `ONE_TIME` timer NULL is called. -/
theorem timer_called_wrongly :
    (∃ st sv, oneTimerRun loop = some (st, [sv]) ∧ sv.timer.addr = 2076 ∧
      sv.call = ⟨some 77, 1000, some 5⟩ ∧ ¬ sv.Right) ∧
    (∃ sv, oneTimerRun oneTime = some (none, [sv]) ∧ sv.call = ⟨none, 1000, none⟩ ∧
      ¬ sv.Right) := by
  refine ⟨⟨_, _, rfl, rfl, rfl, ?_⟩, ⟨_, rfl, rfl, ?_⟩⟩
  · rintro ⟨m, hm, hcall, -⟩
    obtain rfl := Option.some.inj hm
    exact absurd hcall (by decide)
  · rintro ⟨m, hm, hcall, -⟩
    obtain rfl := Option.some.inj hm
    exact absurd hcall (by decide)

end Start01
