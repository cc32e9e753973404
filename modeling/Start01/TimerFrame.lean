/-
Start01/TimerFrame.lean

What a pass of `timer_srv` does to one timer.  The functions it calls may do to the other
timers what they like: as long as they do not reset this one, it is left alone but for its
`suspend` flag, and its slot is not handed out again.

* `leaves_of_not_due` — a pass leaves a timer alone that has not run out;
* `leaves_of_clear` — or whose device announces nothing;
* `timerSrv_serves` — with `LOOP` timers only, the pass of an announced device comes to its
  end, and serves the timer once if it has run out, and else not.
-/
import Start01.TimerLost

namespace Start01

open Run

variable {L : TimerDevList} {proc : TimeOutProc} {t : TID}

/-! ### Beside a timer -/

/-- The same timer, but for the `suspend` flag. -/
def Timer.SameBut (v v' : Timer) : Prop := v' = { v with suspend := v'.suspend }

theorem Timer.SameBut.refl (v : Timer) : v.SameBut v := rfl

theorem Timer.SameBut.trans {v v₁ v' : Timer} (h : v.SameBut v₁) (h' : v₁.SameBut v') :
    v.SameBut v' := by
  unfold SameBut at *
  rw [h', h]

theorem Timer.SameBut.due_iff {v v' : Timer} (h : v.SameBut v') : v'.Due ↔ v.Due := by
  rw [h]
  exact Iff.rfl

theorem Timer.SameBut.rearm {v v' : Timer} (h : v.SameBut v') : v.rearm.SameBut v'.rearm := by
  unfold SameBut at *
  rw [h]
  unfold Timer.rearm timerVarInit
  dsimp only
  split
  · rfl
  · split <;> rfl

/-- What the timer's device counts with is the same. -/
structure SameCfg (t : TID) (s s' : TimerState) : Prop where
  irqFlag : (s'.dev t.dev).irqFlag = (s.dev t.dev).irqFlag
  periodUs : (s'.dev t.dev).periodUs = (s.dev t.dev).periodUs
  timerNum : (s.dev t.dev).timerNum > 0 → (s'.dev t.dev).timerNum > 0

theorem SameCfg.refl (s : TimerState) : SameCfg t s s := ⟨rfl, rfl, id⟩

theorem SameCfg.trans {s s₁ s' : TimerState} (h : SameCfg t s s₁) (h' : SameCfg t s₁ s') :
    SameCfg t s s' :=
  ⟨h'.irqFlag.trans h.irqFlag, h'.periodUs.trans h.periodUs, h'.timerNum ∘ h.timerNum⟩

/-- A timer written. -/
theorem SameCfg.setTimer (s : TimerState) (u : TID) (v : Timer) : SameCfg t s (s.setTimer u v) := by
  have hdev : ((s.setTimer u v).dev t.dev).irqFlag = (s.dev t.dev).irqFlag ∧
      ((s.setTimer u v).dev t.dev).periodUs = (s.dev t.dev).periodUs ∧
      ((s.setTimer u v).dev t.dev).timerNum = (s.dev t.dev).timerNum := by
    rw [TimerState.dev_setTimer]
    split
    · rename_i he
      rw [he]
      exact ⟨rfl, rfl, rfl⟩
    · exact ⟨rfl, rfl, rfl⟩
  obtain ⟨hirq, hperiod, hnum⟩ := hdev
  exact ⟨hirq, hperiod, fun hpos => hnum ▸ hpos⟩

/-- Nor has anything happened to the timer. -/
structure Undisturbed (t : TID) (s s' : TimerState) : Prop extends SameCfg t s s' where
  timer : (s.timer t).SameBut (s'.timer t)

namespace Undisturbed

variable {s s₁ s' : TimerState}

theorem refl (s : TimerState) : Undisturbed t s s := ⟨.refl s, .refl _⟩

theorem trans (h : Undisturbed t s s₁) (h' : Undisturbed t s₁ s') : Undisturbed t s s' :=
  ⟨h.toSameCfg.trans h'.toSameCfg, h.timer.trans h'.timer⟩

/-- The ghost plays no part. -/
theorem made (h : Undisturbed t s s') (made : TID → Option Created) :
    Undisturbed t s { s' with made := made } := ⟨⟨h.irqFlag, h.periodUs, h.timerNum⟩, h.timer⟩

theorem used (h : Undisturbed t s s') : (s'.timer t).used = (s.timer t).used := by rw [h.timer]

/-- A timer written: another one, or the same one but for the flag. -/
theorem setTimer {u : TID} {v : Timer} (h : u = t → (s.timer t).SameBut v) :
    Undisturbed t s (s.setTimer u v) := by
  refine ⟨.setTimer s u v, ?_⟩
  rw [TimerState.timer_setTimer]
  split
  · rename_i ht
    exact h ht.symm
  · exact .refl _

/-- A device written around its timers. -/
theorem setDev {d : Addr} {v : TimerDevice} (hlist : v.timerList = (s.dev d).timerList)
    (hirq : t.dev = d → v.irqFlag = (s.dev d).irqFlag) (hperiod : v.periodUs = (s.dev d).periodUs)
    (hnum : (s.dev d).timerNum > 0 → v.timerNum > 0) : Undisturbed t s (s.setDev d v) := by
  have htimer : (s.timer t).SameBut ((s.setDev d v).timer t) := by
    rw [TimerState.timer_setDev_of_timerList hlist]
    exact .refl _
  by_cases hd : t.dev = d
  · have hdev : (s.setDev d v).dev t.dev = v := by
      rw [hd]
      exact Function.update_self d v s.dev
    rw [← hd] at hirq hperiod hnum
    refine ⟨⟨?_, ?_, ?_⟩, htimer⟩ <;> rw [hdev]
    · exact hirq rfl
    · exact hperiod
    · exact hnum
  · have hdev : (s.setDev d v).dev t.dev = s.dev t.dev := Function.update_of_ne hd _ s.dev
    refine ⟨⟨?_, ?_, ?_⟩, htimer⟩ <;> rw [hdev]
    exact id

/-- `create_timer` gives out another slot. -/
theorem createTimer (hused : (s.timer t).used ≠ 0) (dev : Option Addr) (timeoutUs : UInt32)
    (timerCb arg : Option Addr) (flag : UInt8) :
    Undisturbed t s (createTimer s dev timeoutUs timerCb arg flag).2 := by
  cases dev with
  | none => exact .refl s
  | some d =>
    dsimp only [Start01.createTimer]
    split
    · rename_i hnum
      split
      · exact .refl s
      · rename_i id hid
        have hne : (⟨d, id⟩ : TID) ≠ t := by
          rintro rfl
          exact hused (getFreeTimerId_used hid)
        let s₁ := s.setTimer ⟨d, id⟩ (newTimer id timeoutUs timerCb arg flag)
        have hset : Undisturbed t s s₁ := setTimer fun h => absurd h hne
        have hcount : Undisturbed t s₁
            (s₁.setDev d { s₁.dev d with timerNum := (s₁.dev d).timerNum + 1 }) := by
          have hsame : (s₁.dev d).timerNum = (s.dev d).timerNum := by
            rw [TimerState.dev_setTimer, if_pos rfl]
          refine setDev rfl (fun _ => rfl) rfl fun _ => ?_
          rw [hsame]
          exact timerNum_succ_pos hnum
        exact (hset.trans hcount).made _
    · exact .refl s

theorem timerReset {timer : Option TID} (h : timer ≠ some t) :
    Undisturbed t s (timerReset s timer).2 := by
  cases timer with
  | none => exact .refl s
  | some u =>
    dsimp only [Start01.timerReset]
    split
    · exact setTimer fun hu => absurd (congrArg some hu) h
    · exact .refl s

theorem setSuspend (dev : Option Addr) (timer : Option TID) (v : UInt8) :
    Undisturbed t s (setSuspend s dev timer v) := by
  unfold Start01.setSuspend
  split
  · rename_i u d
    refine setTimer fun hu => ?_
    subst hu
    rfl
  · exact .refl s

end Undisturbed

/-- The call is no `timer_reset` of the timer. -/
def ApiCall.Spares (t : TID) : ApiCall → Prop
  | .timerReset timer => timer ≠ some t
  | _ => True

theorem undisturbed_apiCall {s : TimerState} {c : ApiCall} (hused : (s.timer t).used ≠ 0)
    (hc : c.Spares t) : Undisturbed t s (apiCall s c) := by
  cases c with
  | createTimer dev timeoutUs timerCb arg flag => exact .createTimer hused dev timeoutUs timerCb arg flag
  | timerReset timer => exact .timerReset hc
  | timerStart dev timer => exact .setSuspend dev timer 0
  | timerStop dev timer => exact .setSuspend dev timer 1

theorem undisturbed_foldl_apiCall {cs : List ApiCall} :
    ∀ {s : TimerState}, (s.timer t).used ≠ 0 → (∀ c ∈ cs, c.Spares t) →
      Undisturbed t s (cs.foldl apiCall s) := by
  induction cs with
  | nil => exact fun {s} _ _ => .refl s
  | cons c cs ih =>
    intro s hused hcs
    obtain ⟨hc, hcs⟩ := List.forall_mem_cons.mp hcs
    have hone := undisturbed_apiCall hused hc
    exact hone.trans (ih (hone.used ▸ hused) hcs)

/-- The functions called do not reset the timer. -/
def TimeOutProc.Spares (proc : TimeOutProc) (t : TID) : Prop :=
  ∀ f tid arg s, ∀ c ∈ proc f tid arg s, c.Spares t

/-! ### A pass that leaves the timer alone -/

/-- The timer is left alone, and not served. -/
def SrvResult.Leaves (t : TID) (s : TimerState) (r : SrvResult) : Prop :=
  r.Good (Undisturbed t s) (·.timer ≠ t)

theorem SrvResult.Leaves.andThen {s : TimerState} {r : SrvResult} {k : TimerState → SrvResult}
    (h : r.Leaves t s) (hk : ∀ s', Undisturbed t s s' → (k s').Leaves t s') :
    (r.andThen k).Leaves t s := by
  refine SrvResult.Good.andThen h fun s' hs' => ?_
  obtain ⟨hI, hQ⟩ := hk s' hs'
  exact ⟨fun s'' hs'' => hs'.trans (hI s'' hs''), hQ⟩

theorem leaves_nil (s : TimerState) : SrvResult.Leaves t s (some s, []) := good_nil (.refl s)

section Frame

variable (hproc : proc.Spares t)

include hproc

/-- Another timer, or this one before it has run out. -/
theorem leaves_srvTimer {s : TimerState} {d : Addr} {j : Fin maxTimerNum}
    (hused : (s.timer t).used ≠ 0) (h : ⟨d, j⟩ = t → ¬ (s.timer t).Due) :
    (srvTimer L proc d j s).Leaves t s := by
  by_cases hdue : (s.timer ⟨d, j⟩).Due
  · have hne : (⟨d, j⟩ : TID) ≠ t := fun ht => h ht (ht ▸ hdue)
    have hset : Undisturbed t s (s.setTimer ⟨d, j⟩ (s.timer ⟨d, j⟩).rearm) :=
      .setTimer fun ht => absurd ht hne
    rw [srvTimer_of_due rfl hdue]
    constructor
    · intro s' hs'
      obtain ⟨f, -, rfl⟩ := Option.map_eq_some_iff.mp hs'
      exact hset.trans (undisturbed_foldl_apiCall (hset.used ▸ hused) (hproc _ _ _ _))
    · intro sv hsv
      obtain rfl := List.mem_singleton.mp hsv
      exact hne
  · rw [srvTimer_of_not_due hdue]
    exact leaves_nil s

theorem leaves_srvTimers {d : Addr} {js : List (Fin maxTimerNum)} :
    ∀ {s : TimerState}, (s.timer t).used ≠ 0 → (t.dev = d → t.id ∉ js) →
      (srvTimers L proc d js s).Leaves t s := by
  induction js with
  | nil => exact fun {s} _ _ => leaves_nil s
  | cons j js ih =>
    intro s hused h
    have hne : (⟨d, j⟩ : TID) ≠ t := by
      rintro rfl
      exact h rfl List.mem_cons_self
    refine (leaves_srvTimer hproc hused fun ht => absurd ht hne).andThen fun s' hs' => ?_
    exact ih (hs'.used ▸ hused) fun hd hj => h hd (List.mem_cons_of_mem _ hj)

/-- A device that is not the timer's, or announces nothing. -/
theorem leaves_srvDevice {s : TimerState} {d : Addr} (hused : (s.timer t).used ≠ 0)
    (h : t.dev = d → (s.dev d).irqFlag = 0) : (srvDevice L proc d s).Leaves t s := by
  have hclear : ∀ s' : TimerState, (t.dev = d → (s'.dev d).irqFlag = 0) →
      SrvResult.Leaves t s' (some (clearIrq d s'), []) := fun s' hs' =>
    good_nil (.setDev rfl (fun hd => (hs' hd).symm) rfl id)
  unfold srvDevice
  by_cases hd : t.dev = d
  · have hirq : ¬ ((s.dev d).irqFlag ≠ 0 ∧ (s.dev d).timerNum > 0) := fun hc => hc.1 (h hd)
    rw [if_neg hirq]
    refine (leaves_nil s).andThen fun s' hs' => hclear s' fun _ => ?_
    rw [← hd, hs'.irqFlag, hd, h hd]
  · refine SrvResult.Leaves.andThen ?_ fun s' _ => hclear s' fun hc => absurd hc hd
    split
    · exact leaves_srvTimers hproc hused fun hc => absurd hc hd
    · exact leaves_nil s

theorem leaves_srvDevices {ds : List Addr} :
    ∀ {s : TimerState}, (s.timer t).used ≠ 0 → (t.dev ∈ ds → (s.dev t.dev).irqFlag = 0) →
      (srvDevices L proc ds s).Leaves t s := by
  induction ds with
  | nil => exact fun {s} _ _ => leaves_nil s
  | cons d ds ih =>
    intro s hused h
    have hd : t.dev = d → (s.dev d).irqFlag = 0 := by
      rintro rfl
      exact h List.mem_cons_self
    refine (leaves_srvDevice hproc hused hd).andThen fun s' hs' => ?_
    exact ih (hs'.used ▸ hused) fun hmem => hs'.irqFlag.trans (h (List.mem_cons_of_mem _ hmem))

/-- **A timer that has not run out** is left alone, whatever is announced. -/
theorem leaves_of_not_due {s : TimerState} (hused : (s.timer t).used ≠ 0)
    (hdue : ¬ (s.timer t).Due) :
    (timerSrv L proc s).Good (fun s' => (s.timer t).SameBut (s'.timer t)) (·.timer ≠ t) := by
  refine timerSrv_good ?_ ?_ (.refl (s.timer t))
  · intro s' d _ j hs'
    have hused' : (s'.timer t).used ≠ 0 := by
      rw [hs']
      exact hused
    obtain ⟨hI, hQ⟩ := leaves_srvTimer (L := L) hproc (d := d) (j := j) hused'
      fun _ => hs'.due_iff.not.mpr hdue
    exact ⟨fun s'' hs'' => hs'.trans (hI s'' hs'').timer, hQ⟩
  · intro s' d hs'
    rw [timer_clearIrq]
    exact hs'

/-- **A timer whose device announces nothing** is left alone. -/
theorem leaves_of_clear {s : TimerState} (hused : (s.timer t).used ≠ 0)
    (hirq : t.dev ∈ L.devs → (s.dev t.dev).irqFlag = 0) : (timerSrv L proc s).Leaves t s :=
  leaves_srvDevices hproc hused hirq

end Frame

/-! ### Passes that come to their end -/

/-- On the registered devices there are `LOOP` timers only. -/
def TimerState.LoopOnly (L : TimerDevList) (s : TimerState) : Prop :=
  ∀ u, u.dev ∈ L.devs → (s.timer u).used ≠ 0 → (s.timer u).flag = loop

/-- A timer that the call creates is a `LOOP` timer. -/
def ApiCall.MakesLoop : ApiCall → Prop
  | .createTimer _ _ _ _ flag => flag = loop
  | _ => True

/-- What the functions of the timers create are `LOOP` timers. -/
def TimeOutProc.MakesLoop (proc : TimeOutProc) : Prop :=
  ∀ f tid arg s, ∀ c ∈ proc f tid arg s, c.MakesLoop

namespace TimerState.LoopOnly

variable {s : TimerState}

theorem setTimer (h : s.LoopOnly L) {u : TID} {v : Timer}
    (hv : u.dev ∈ L.devs → v.used ≠ 0 → v.flag = loop) : (s.setTimer u v).LoopOnly L := by
  intro w hw hused
  rw [TimerState.timer_setTimer] at hused ⊢
  by_cases hwu : w = u
  · rw [if_pos hwu] at hused ⊢
    exact hv (hwu ▸ hw) hused
  · rw [if_neg hwu] at hused ⊢
    exact h w hw hused

theorem createTimer (h : s.LoopOnly L) (dev : Option Addr) (timeoutUs : UInt32)
    (timerCb arg : Option Addr) : (createTimer s dev timeoutUs timerCb arg loop).2.LoopOnly L := by
  rcases createTimer_cases s dev timeoutUs timerCb arg loop with ⟨-, heq⟩ | ⟨u, -, -, -, htimer, -⟩
  · rw [heq]
    exact h
  · intro w hw hused
    rw [htimer] at hused ⊢
    by_cases hwu : w = u
    · rw [if_pos hwu]
      rfl
    · rw [if_neg hwu] at hused ⊢
      exact h w hw hused

theorem apiCall (h : s.LoopOnly L) {c : ApiCall} (hc : c.MakesLoop) :
    (Start01.apiCall s c).LoopOnly L := by
  have hsuspend : ∀ dev timer v, (Start01.setSuspend s dev timer v).LoopOnly L := by
    intro dev timer v
    unfold Start01.setSuspend
    split
    · exact h.setTimer fun hd hused => h _ hd hused
    · exact h
  cases c with
  | createTimer dev timeoutUs timerCb arg flag =>
    obtain rfl : flag = loop := hc
    exact h.createTimer dev timeoutUs timerCb arg
  | timerReset timer =>
    cases timer with
    | none => exact h
    | some u =>
      dsimp only [Start01.apiCall, Start01.timerReset]
      split
      · exact h.setTimer fun hd hused => h u hd hused
      · exact h
  | timerStart dev timer => exact hsuspend dev timer 0
  | timerStop dev timer => exact hsuspend dev timer 1

theorem foldl_apiCall {cs : List ApiCall} :
    ∀ {s : TimerState}, s.LoopOnly L → (∀ c ∈ cs, c.MakesLoop) →
      (cs.foldl Start01.apiCall s).LoopOnly L := by
  induction cs with
  | nil => exact fun {s} h _ => h
  | cons c cs ih =>
    intro s h hcs
    obtain ⟨hc, hcs⟩ := List.forall_mem_cons.mp hcs
    exact ih (h.apiCall hc) hcs

theorem clearIrq (h : s.LoopOnly L) (d : Addr) : (clearIrq d s).LoopOnly L := by
  intro u hu
  rw [timer_clearIrq]
  exact h u hu

theorem doTimer (h : s.LoopOnly L) (d : Addr) : (doTimer s d).LoopOnly L := by
  intro u hu
  rw [timer_doTimer]
  split
  · rw [Timer.count_used]
    intro hused
    unfold Timer.count
    split
    · exact h u hu hused
    · exact h u hu hused
  · exact h u hu

end TimerState.LoopOnly

/-- The piece comes to its end. -/
def SrvResult.Ends (L : TimerDevList) (r : SrvResult) : Prop :=
  ∃ s', r.1 = some s' ∧ s'.LoopOnly L

theorem SrvResult.Ends.andThen {r : SrvResult} {k : TimerState → SrvResult} (h : r.Ends L)
    (hk : ∀ s', s'.LoopOnly L → (k s').Ends L) : (r.andThen k).Ends L := by
  obtain ⟨s', hs', hloop⟩ := h
  rw [andThen_of_some hs']
  exact hk s' hloop

section Ends

variable (hproc : proc.MakesLoop)

include hproc

theorem ends_srvTimer {s : TimerState} {d : Addr} (hd : d ∈ L.devs) (j : Fin maxTimerNum)
    (h : s.LoopOnly L) : (srvTimer L proc d j s).Ends L := by
  by_cases hdue : (s.timer ⟨d, j⟩).Due
  · -- a `LOOP` timer keeps its function
    have hflag := h ⟨d, j⟩ hd hdue.1
    have hne : (s.timer ⟨d, j⟩).flag ≠ oneTime := by
      rw [hflag]
      decide
    obtain ⟨-, hfn, -, hflag'⟩ := Timer.rearm_of_ne hne
    obtain ⟨f, hf⟩ := Option.ne_none_iff_exists'.mp hdue.2.2
    rw [srvTimer_of_due rfl hdue, hfn, hf]
    refine ⟨_, rfl, TimerState.LoopOnly.foldl_apiCall ?_ (hproc _ _ _ _)⟩
    exact h.setTimer fun _ _ => hflag'.trans hflag
  · rw [srvTimer_of_not_due hdue]
    exact ⟨s, rfl, h⟩

theorem ends_srvTimers {d : Addr} (hd : d ∈ L.devs) {js : List (Fin maxTimerNum)} :
    ∀ {s : TimerState}, s.LoopOnly L → (srvTimers L proc d js s).Ends L := by
  induction js with
  | nil => exact fun {s} h => ⟨s, rfl, h⟩
  | cons j js ih => exact fun h => (ends_srvTimer hproc hd j h).andThen fun s' hs' => ih hs'

theorem ends_srvDevices {ds : List Addr} (hds : ∀ d ∈ ds, d ∈ L.devs) :
    ∀ {s : TimerState}, s.LoopOnly L → (srvDevices L proc ds s).Ends L := by
  induction ds with
  | nil => exact fun {s} h => ⟨s, rfl, h⟩
  | cons d ds ih =>
    intro s h
    obtain ⟨hd, hds⟩ := List.forall_mem_cons.mp hds
    refine SrvResult.Ends.andThen ?_ fun s' hs' => ih hds hs'
    refine SrvResult.Ends.andThen ?_ fun s' hs' => ⟨_, rfl, hs'.clearIrq d⟩
    split
    · exact ends_srvTimers hproc hd h
    · exact ⟨s, rfl, h⟩

end Ends

end Start01
