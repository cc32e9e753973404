/-
Start01/TimerSteps.lean

`timer_srv` cut into its elementary steps.  `do_timer` is the body of the interrupt
handler and may run between any two of them; it is atomic.

Interrupt and main loop share `timeout_us` and `irq_flag`.  In the inner loop the
first is read once, with the fields that only the main loop writes, and written once,
so each iteration has three steps: the test, the re-arming and the call.

A function called may itself make any calls of the API, with interrupts between
them; what it calls is chosen step by step.  A call through NULL ends in `fault`,
and nothing but interrupts happens behind it.

Two ghosts are for the pass of `timer_srv` that is going on or was the last: the
timers that had run out when it started, and those it has served.

A pass as `timerSrv` models it, in one piece, is a run of elementary steps
(`exec_timerSrv`).
-/
import Start01.TimerSrv

namespace Start01

open Run

/-! ### The elementary steps -/

/-- Where the main loop is.  The lists are the devices and the slots still to come in the
two loops; `idle` is outside `timer_srv`. -/
inductive SrvPc
  | idle
  | device (ds : List Addr)
  | timerNum (d : Addr) (ds : List Addr)
  | slots (d : Addr) (ds : List Addr) (js : List (Fin maxTimerNum))
  | rearm (d : Addr) (ds : List Addr) (j : Fin maxTimerNum) (js : List (Fin maxTimerNum))
  | call (d : Addr) (ds : List Addr) (j : Fin maxTimerNum) (js : List (Fin maxTimerNum))
  | called (d : Addr) (ds : List Addr) (js : List (Fin maxTimerNum))
  | clear (d : Addr) (ds : List Addr)
  | fault
deriving DecidableEq

/-- The timers, and where the program is in `timer_srv`. -/
structure TimerSys where
  timers : TimerState
  pc : SrvPc
  /-- Ghost: the timers that had run out when the pass started. -/
  expired : TID → Bool
  /-- Ghost: the timers the pass has served. -/
  served : List TID

namespace TimerSys

/-- `timer_srv` is called. -/
def enter (L : TimerDevList) (s : TimerSys) : Option TimerSys :=
  match s.pc with
  | .idle => some { s with
      pc := .device L.devs
      expired := fun t => decide (s.timers.timer t).Due
      served := [] }
  | _ => none

/-- The program goes on at `pc`. -/
def goto (s : TimerSys) (pc : SrvPc) : TimerSys := { s with pc := pc }

/-- The next step of `timer_srv`, or the return of the function called. -/
def main (s : TimerSys) : Option TimerSys :=
  match s.pc with
  | .idle | .fault => none
  | .device [] => some (s.goto .idle)
  -- `timer_dev_list[i]->irq_flag`
  | .device (d :: ds) =>
      some (s.goto (if (s.timers.dev d).irqFlag ≠ 0 then .timerNum d ds else .clear d ds))
  -- `timer_dev_list[i]->cfg.timer_num > 0`
  | .timerNum d ds =>
      some (s.goto (if (s.timers.dev d).timerNum > 0 then .slots d ds (List.finRange maxTimerNum)
        else .clear d ds))
  | .slots d ds [] => some (s.goto (.clear d ds))
  -- `timer[j].used && timer[j].timeout_us <= 0`, and `NULL==timer[j].fn`
  | .slots d ds (j :: js) =>
      some (s.goto (if (s.timers.timer ⟨d, j⟩).Due then .rearm d ds j js else .slots d ds js))
  | .rearm d ds j js =>
      some { s with
        timers := s.timers.setTimer ⟨d, j⟩ (s.timers.timer ⟨d, j⟩).rearm
        pc := .call d ds j js }
  -- `timer[j].fn(timer_dev_list + j, timer[j].private_arg)`
  | .call d ds j js =>
      match (s.timers.timer ⟨d, j⟩).fn with
      | none => some (s.goto .fault)
      | some _ => some { s with pc := .called d ds js, served := ⟨d, j⟩ :: s.served }
  | .called d ds js => some (s.goto (.slots d ds js))
  -- `timer_dev_list[i]->irq_flag = 0`
  | .clear d ds => some { s with timers := clearIrq d s.timers, pc := .device ds }

/-- The main loop, or the function called, calls the API. -/
def api (s : TimerSys) (c : ApiCall) : Option TimerSys :=
  match s.pc with
  | .idle | .called _ _ _ => some { s with timers := apiCall s.timers c }
  | _ => none

/-- The interrupt: `do_timer`. -/
def tick (s : TimerSys) (d : Addr) : TimerSys := { s with timers := doTimer s.timers d }

end TimerSys

/-- The program enters `timer_srv`, goes on in it, calls a function, or is interrupted. -/
inductive SysOp
  | enter
  | main
  | api (c : ApiCall)
  | tick (d : Addr)

/-- One step of the program or the interrupt. -/
def sysStep (L : TimerDevList) (s : TimerSys) : SysOp → Option TimerSys
  | .enter => s.enter L
  | .main => s.main
  | .api c => s.api c
  | .tick d => some (s.tick d)

/-- All devices after `timer_init_cfg`. -/
def TimerSys.reset (periodUs : UInt32) : TimerSys where
  timers := .reset periodUs
  pc := .idle
  expired := fun _ => false
  served := []

/-! ### Passes in one piece -/

namespace TimerSys

variable {L : TimerDevList} {proc : TimeOutProc}

/-- From `s`, steps other than interrupts lead to `s'`. -/
def Reaches (L : TimerDevList) (s s' : TimerSys) : Prop :=
  ∃ ops : List SysOp, (∀ op ∈ ops, ∀ d, op ≠ .tick d) ∧ exec (sysStep L) s ops = some s'

theorem Reaches.refl (s : TimerSys) : Reaches L s s :=
  ⟨[], fun _ h => absurd h List.not_mem_nil, rfl⟩

theorem Reaches.trans {s s₁ s' : TimerSys} (h : Reaches L s s₁) (h' : Reaches L s₁ s') :
    Reaches L s s' := by
  obtain ⟨ops, hops, hexec⟩ := h
  obtain ⟨ops', hops', hexec'⟩ := h'
  refine ⟨ops ++ ops', ?_, ?_⟩
  · exact fun op hop => (List.mem_append.mp hop).elim (hops op) (hops' op)
  · rw [exec_append hexec, hexec']

theorem Reaches.step {s s' : TimerSys} (op : SysOp) (hop : ∀ d, op ≠ .tick d)
    (h : sysStep L s op = some s') : Reaches L s s' := by
  refine ⟨[op], ?_, ?_⟩
  · intro op' hmem
    obtain rfl := List.mem_singleton.mp hmem
    exact hop
  · rw [exec, h]
    rfl

theorem Reaches.main {s s' : TimerSys} (h : s.main = some s') : Reaches L s s' :=
  .step .main nofun h

/-- What a called function calls. -/
theorem reaches_foldl_apiCall {d : Addr} {ds : List Addr} {js : List (Fin maxTimerNum)}
    {expired : TID → Bool} {served : List TID} (cs : List ApiCall) : ∀ s : TimerState,
    Reaches L ⟨s, .called d ds js, expired, served⟩
      ⟨cs.foldl apiCall s, .called d ds js, expired, served⟩ := by
  induction cs with
  | nil => exact fun s => .refl _
  | cons c cs ih =>
    intro s
    exact (Reaches.step (.api c) nofun rfl).trans (ih (apiCall s c))

/-- One iteration of the inner loop. -/
theorem reaches_srvTimer {d : Addr} {j : Fin maxTimerNum} {s s' : TimerState}
    {services : List Service} (h : srvTimer L proc d j s = (some s', services)) (ds : List Addr)
    (js : List (Fin maxTimerNum)) (expired : TID → Bool) (served : List TID) :
    Reaches L ⟨s, .slots d ds (j :: js), expired, served⟩
      ⟨s', .slots d ds js, expired, (services.map Service.timer).reverse ++ served⟩ := by
  by_cases hdue : (s.timer ⟨d, j⟩).Due
  · rw [srvTimer_of_due rfl hdue, Prod.mk.injEq, Option.map_eq_some_iff] at h
    obtain ⟨⟨f, hfn, rfl⟩, rfl⟩ := h
    obtain ⟨t, ht⟩ : ∃ t, (s.timer ⟨d, j⟩).rearm = t := ⟨_, rfl⟩
    rw [ht] at hfn
    have htimer : (s.setTimer ⟨d, j⟩ t).timer ⟨d, j⟩ = t := by
      rw [TimerState.timer_setTimer, if_pos rfl]
    have htest : TimerSys.main ⟨s, .slots d ds (j :: js), expired, served⟩
        = some ⟨s, .rearm d ds j js, expired, served⟩ := by
      simp only [main, goto, if_pos hdue]
    have hrearm : TimerSys.main ⟨s, .rearm d ds j js, expired, served⟩
        = some ⟨s.setTimer ⟨d, j⟩ t, .call d ds j js, expired, served⟩ := by
      simp only [main, ht]
    have hcall : TimerSys.main ⟨s.setTimer ⟨d, j⟩ t, .call d ds j js, expired, served⟩
        = some ⟨s.setTimer ⟨d, j⟩ t, .called d ds js, expired, ⟨d, j⟩ :: served⟩ := by
      simp only [main, htimer, hfn]
    rw [ht]
    refine (Reaches.main htest).trans ((Reaches.main hrearm).trans ((Reaches.main hcall).trans ?_))
    exact (reaches_foldl_apiCall _ _).trans (.main rfl)
  · rw [srvTimer_of_not_due hdue, Prod.mk.injEq] at h
    obtain ⟨hs, rfl⟩ := h
    obtain rfl := Option.some.inj hs
    refine .main ?_
    simp only [main, goto, if_neg hdue]
    rfl

/-- The inner loop. -/
theorem reaches_srvTimers {d : Addr} {ds : List Addr} {expired : TID → Bool}
    (js : List (Fin maxTimerNum)) : ∀ {s s' : TimerState} {services : List Service}
      {served : List TID}, srvTimers L proc d js s = (some s', services) →
    Reaches L ⟨s, .slots d ds js, expired, served⟩
      ⟨s', .clear d ds, expired, (services.map Service.timer).reverse ++ served⟩ := by
  induction js with
  | nil =>
    intro s s' services served h
    obtain ⟨hs, rfl⟩ := Prod.mk.injEq .. ▸ h
    obtain rfl := Option.some.inj hs
    exact .main rfl
  | cons j js ih =>
    intro s s' services served h
    cases h₁ : (srvTimer L proc d j s).1 with
    | none =>
      rw [srvTimers, SrvResult.andThen_of_none h₁] at h
      rw [h] at h₁
      cases h₁
    | some s₁ =>
      rw [srvTimers, SrvResult.andThen_of_some h₁, Prod.mk.injEq] at h
      obtain ⟨h₂, rfl⟩ := h
      have hfirst := reaches_srvTimer (Prod.ext h₁ rfl) ds js expired served
      have hrest := @ih s₁ s' (srvTimers L proc d js s₁).2
        (((srvTimer L proc d j s).2.map Service.timer).reverse ++ served) (Prod.ext h₂ rfl)
      rw [List.map_append, List.reverse_append, List.append_assoc]
      exact hfirst.trans hrest

/-- The end of an iteration of the outer loop. -/
theorem reaches_clear {d : Addr} {ds : List Addr} {s : TimerState} {expired : TID → Bool}
    {served : List TID} : Reaches L ⟨s, .clear d ds, expired, served⟩
      ⟨clearIrq d s, .device ds, expired, served⟩ :=
  .main rfl

/-- One iteration of the outer loop. -/
theorem reaches_srvDevice {d : Addr} {s s' : TimerState} {services : List Service}
    (h : srvDevice L proc d s = (some s', services)) (ds : List Addr) (expired : TID → Bool)
    (served : List TID) :
    Reaches L ⟨s, .device (d :: ds), expired, served⟩
      ⟨s', .device ds, expired, (services.map Service.timer).reverse ++ served⟩ := by
  have hflag : TimerSys.main ⟨s, .device (d :: ds), expired, served⟩ = some ⟨s,
      if (s.dev d).irqFlag ≠ 0 then .timerNum d ds else .clear d ds, expired, served⟩ := rfl
  have hnum : TimerSys.main ⟨s, .timerNum d ds, expired, served⟩ = some ⟨s,
      if (s.dev d).timerNum > 0 then .slots d ds (List.finRange maxTimerNum) else .clear d ds,
      expired, served⟩ := rfl
  unfold srvDevice at h
  dsimp only at h
  by_cases hirq : (s.dev d).irqFlag ≠ 0
  · rw [if_pos hirq] at hflag
    by_cases hpos : (s.dev d).timerNum > 0
    · rw [if_pos hpos] at hnum
      rw [if_pos ⟨hirq, hpos⟩] at h
      cases h₁ : (srvTimers L proc d (List.finRange maxTimerNum) s).1 with
      | none =>
        rw [SrvResult.andThen_of_none h₁] at h
        rw [h] at h₁
        cases h₁
      | some s₁ =>
        rw [SrvResult.andThen_of_some h₁, Prod.mk.injEq, List.append_nil] at h
        obtain ⟨hs, rfl⟩ := h
        obtain rfl := Option.some.inj hs
        have hloop := @reaches_srvTimers L proc d ds expired (List.finRange maxTimerNum) s s₁
          (srvTimers L proc d (List.finRange maxTimerNum) s).2 served (Prod.ext h₁ rfl)
        exact (Reaches.main hflag).trans ((Reaches.main hnum).trans (hloop.trans reaches_clear))
    · rw [if_neg hpos] at hnum
      rw [if_neg fun hc => hpos hc.2] at h
      obtain ⟨hs, rfl⟩ := Prod.mk.injEq .. ▸ h
      obtain rfl := Option.some.inj hs
      exact (Reaches.main hflag).trans ((Reaches.main hnum).trans reaches_clear)
  · rw [if_neg hirq] at hflag
    rw [if_neg fun hc => hirq hc.1] at h
    obtain ⟨hs, rfl⟩ := Prod.mk.injEq .. ▸ h
    obtain rfl := Option.some.inj hs
    exact (Reaches.main hflag).trans reaches_clear

/-- The outer loop. -/
theorem reaches_srvDevices {expired : TID → Bool} (ds : List Addr) :
    ∀ {s s' : TimerState} {services : List Service} {served : List TID},
      srvDevices L proc ds s = (some s', services) →
      Reaches L ⟨s, .device ds, expired, served⟩
        ⟨s', .idle, expired, (services.map Service.timer).reverse ++ served⟩ := by
  induction ds with
  | nil =>
    intro s s' services served h
    obtain ⟨hs, rfl⟩ := Prod.mk.injEq .. ▸ h
    obtain rfl := Option.some.inj hs
    exact .main rfl
  | cons d ds ih =>
    intro s s' services served h
    cases h₁ : (srvDevice L proc d s).1 with
    | none =>
      rw [srvDevices, SrvResult.andThen_of_none h₁] at h
      rw [h] at h₁
      cases h₁
    | some s₁ =>
      rw [srvDevices, SrvResult.andThen_of_some h₁, Prod.mk.injEq] at h
      obtain ⟨h₂, rfl⟩ := h
      have hfirst := reaches_srvDevice (Prod.ext h₁ rfl) ds expired served
      have hrest := @ih s₁ s' (srvDevices L proc ds s₁).2
        (((srvDevice L proc d s).2.map Service.timer).reverse ++ served) (Prod.ext h₂ rfl)
      rw [List.map_append, List.reverse_append, List.append_assoc]
      exact hfirst.trans hrest

/-- **A pass in one piece** that returns is a run of elementary steps without interrupts,
which serves the same timers. -/
theorem exec_timerSrv {s : TimerSys} (hpc : s.pc = .idle) {s' : TimerState}
    {services : List Service} (h : timerSrv L proc s.timers = (some s', services)) :
    Reaches L s ⟨s', .idle, fun t => decide (s.timers.timer t).Due,
      (services.map Service.timer).reverse⟩ := by
  have henter : sysStep L s .enter = some ⟨s.timers, .device L.devs,
      fun t => decide (s.timers.timer t).Due, []⟩ := by
    simp only [sysStep, enter, hpc]
  have hloop := @reaches_srvDevices L proc (fun t => decide (s.timers.timer t).Due) L.devs s.timers
    s' services [] h
  rw [List.append_nil] at hloop
  exact (Reaches.step .enter nofun henter).trans hloop

end TimerSys

end Start01
