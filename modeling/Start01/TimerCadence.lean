/-
Start01/TimerCadence.lean

How often a `LOOP` timer is served.  `create_timer` takes the timeout as an unsigned number
and stores it in a signed one; `do_timer` takes the period off it while it is above zero,
and `timer_srv` serves the timer when it is not, and loads it again.

With a pass behind every tick, a timeout below 2^31 is served every `ceil(T / P)` ticks,
whatever other `LOOP` timers there are, and the count never wraps.  From 2^31 on the timeout
is negative, and the timer is served at every tick (`timerSrv_cadence_iff`).
-/
import Start01.TimerFrame

namespace Start01

open Run

variable {L : TimerDevList} {proc : TimeOutProc} {t : TID}

/-! ### One pass -/

/-- How often a timer was served. -/
def servings (t : TID) (services : List Service) : ℕ := services.countP fun sv => sv.timer = t

/-- What a pass makes of a timer. -/
def Timer.served (v : Timer) : Timer := if v.Due then v.rearm else v

/-- How often a pass serves it. -/
def Timer.services (v : Timer) : ℕ := if v.Due then 1 else 0

theorem Timer.SameBut.served {v v' : Timer} (h : v.SameBut v') : v.served.SameBut v'.served := by
  unfold Timer.served
  by_cases hdue : v.Due
  · rw [if_pos hdue, if_pos (h.due_iff.mpr hdue)]
    exact h.rearm
  · rw [if_neg hdue, if_neg (h.due_iff.not.mpr hdue)]
    exact h

theorem Timer.SameBut.services {v v' : Timer} (h : v.SameBut v') : v'.services = v.services := by
  unfold Timer.services
  simp only [h.due_iff]

/-- A `LOOP` timer that is served stays in use, and is loaded again. -/
theorem served_used {v : Timer} (h : v.flag = loop) :
    v.served.used = v.used ∧ v.served.flag = loop ∧ v.served.fn = v.fn ∧
      v.served.reloadTimeoutUs = v.reloadTimeoutUs ∧
      v.served.timeoutUs = if v.Due then v.reloadTimeoutUs else v.timeoutUs := by
  unfold Timer.served
  split
  · rw [Timer.rearm_of_loop h]
    exact ⟨rfl, h, rfl, rfl, rfl⟩
  · exact ⟨rfl, h, rfl, rfl, rfl⟩

/-- A piece of a pass has come to its end: the timer is `v`, its device announces `irq`. -/
structure Done (L : TimerDevList) (t : TID) (s : TimerState) (v : Timer) (irq : UInt32)
    (s' : TimerState) : Prop where
  loopOnly : s'.LoopOnly L
  timer : v.SameBut (s'.timer t)
  irqFlag : (s'.dev t.dev).irqFlag = irq
  periodUs : (s'.dev t.dev).periodUs = (s.dev t.dev).periodUs
  timerNum : (s.dev t.dev).timerNum > 0 → (s'.dev t.dev).timerNum > 0

/-- The piece comes to its end, and has served the timer `k` times. -/
def SrvResult.Does (L : TimerDevList) (t : TID) (s : TimerState) (v : Timer) (irq : UInt32) (k : ℕ)
    (r : SrvResult) : Prop :=
  ∃ s', r.1 = some s' ∧ Done L t s v irq s' ∧ servings t r.2 = k

theorem SrvResult.Does.andThen {s : TimerState} {v v' : Timer} {irq irq' : UInt32} {k k' : ℕ}
    {r : SrvResult} {f : TimerState → SrvResult} (h : r.Does L t s v irq k)
    (hf : ∀ s', Done L t s v irq s' → (f s').Does L t s' v' irq' k') :
    (r.andThen f).Does L t s v' irq' (k + k') := by
  obtain ⟨s₁, hs₁, hdone, hk⟩ := h
  obtain ⟨s', hs', hdone', hk'⟩ := hf s₁ hdone
  rw [SrvResult.andThen_of_some hs₁]
  refine ⟨s', hs', ⟨hdone'.loopOnly, hdone'.timer, hdone'.irqFlag,
    hdone'.periodUs.trans hdone.periodUs, hdone'.timerNum ∘ hdone.timerNum⟩, ?_⟩
  rw [servings, List.countP_append]
  exact congrArg₂ (· + ·) hk hk'

/-- A piece that leaves the timer alone. -/
theorem does_of_leaves {s : TimerState} {v : Timer} {r : SrvResult} (hends : r.Ends L)
    (hleaves : r.Leaves t s) (hv : v.SameBut (s.timer t)) :
    r.Does L t s v (s.dev t.dev).irqFlag 0 := by
  obtain ⟨s', hs', hloop⟩ := hends
  obtain ⟨hI, hQ⟩ := hleaves
  have hsame := hI s' hs'
  refine ⟨s', hs', ⟨hloop, hv.trans hsame.timer, hsame.irqFlag, hsame.periodUs, hsame.timerNum⟩, ?_⟩
  exact List.countP_eq_zero.mpr fun sv hsv => by simpa using hQ sv hsv

theorem SrvResult.andThen_assoc (r : SrvResult) (f g : TimerState → SrvResult) :
    (r.andThen f).andThen g = r.andThen fun s => (f s).andThen g := by
  cases hr : r.1 with
  | none => rw [andThen_of_none hr, andThen_of_none hr, andThen_of_none hr]
  | some s =>
    rw [andThen_of_some hr, andThen_of_some hr]
    cases hf : (f s).1 with
    | none => rw [andThen_of_none rfl, andThen_of_none hf, hf]
    | some s' => rw [andThen_of_some rfl, andThen_of_some hf, List.append_assoc]

/-- The inner loop, cut in two. -/
theorem srvTimers_append {d : Addr} {js js' : List (Fin maxTimerNum)} :
    ∀ {s : TimerState}, srvTimers L proc d (js ++ js') s
      = (srvTimers L proc d js s).andThen (srvTimers L proc d js') := by
  induction js with
  | nil => exact fun {s} => rfl
  | cons j js ih =>
    intro s
    rw [List.cons_append, srvTimers, srvTimers, SrvResult.andThen_assoc]
    congr 1
    funext s'
    exact ih

/-- The outer loop, cut in two. -/
theorem srvDevices_append {ds ds' : List Addr} :
    ∀ {s : TimerState}, srvDevices L proc (ds ++ ds') s
      = (srvDevices L proc ds s).andThen (srvDevices L proc ds') := by
  induction ds with
  | nil => exact fun {s} => rfl
  | cons d ds ih =>
    intro s
    rw [List.cons_append, srvDevices, srvDevices, SrvResult.andThen_assoc]
    congr 1
    funext s'
    exact ih

section Pass

variable (hspares : proc.Spares t) (hmakes : proc.MakesLoop) (hd : t.dev ∈ L.devs)

include hspares hmakes hd

/-- The timer itself. -/
theorem does_srvTimer {s : TimerState} (hloop : s.LoopOnly L) (hused : (s.timer t).used ≠ 0) :
    (srvTimer L proc t.dev t.id s).Does L t s (s.timer t).served (s.dev t.dev).irqFlag
      (s.timer t).services := by
  by_cases hdue : (s.timer t).Due
  · obtain ⟨s', hs', hloop'⟩ := ends_srvTimer hmakes hd t.id hloop
    have hself : (s.setTimer t (s.timer t).rearm).timer t = (s.timer t).rearm := by
      rw [TimerState.timer_setTimer, if_pos rfl]
    have hflag : (s.timer t).flag ≠ oneTime := by
      rw [hloop t hd hused]
      decide
    have hused' : ((s.setTimer t (s.timer t).rearm).timer t).used ≠ 0 := by
      rw [hself, (Timer.rearm_of_ne hflag).1]
      exact hused
    have heq := @srvTimer_of_due L proc s t.dev t.id (s.timer t) rfl hdue
    rw [heq] at hs'
    obtain ⟨f, -, hf⟩ := Option.map_eq_some_iff.mp hs'
    -- what the function calls leaves the timer as it was loaded
    have hcalls := undisturbed_foldl_apiCall hused' (hspares f (L.base + 4 * t.id)
      (s.timer t).rearm.privateArg (s.setTimer t (s.timer t).rearm))
    have hcfg := (SameCfg.setTimer (t := t) s t (s.timer t).rearm).trans hcalls.toSameCfg
    rw [heq]
    subst hf
    refine ⟨_, hs', ⟨hloop', ?_, hcfg.irqFlag, hcfg.periodUs, hcfg.timerNum⟩, ?_⟩
    · have htimer := hcalls.timer
      rw [hself] at htimer
      rw [Timer.served, if_pos hdue]
      exact htimer
    · rw [Timer.services, if_pos hdue]
      exact List.countP_cons_of_pos (decide_eq_true rfl)
  · rw [Timer.served, Timer.services, if_neg hdue, if_neg hdue, srvTimer_of_not_due hdue]
    exact does_of_leaves ⟨s, rfl, hloop⟩ (leaves_nil s) (.refl _)

/-- The inner loop on the device of the timer: the slot is come to once. -/
theorem does_srvTimers {s : TimerState} (hloop : s.LoopOnly L) (hused : (s.timer t).used ≠ 0) :
    (srvTimers L proc t.dev (List.finRange maxTimerNum) s).Does L t s (s.timer t).served
      (s.dev t.dev).irqFlag (s.timer t).services := by
  obtain ⟨pre, post, hsplit⟩ := List.append_of_mem (List.mem_finRange t.id)
  have hnodup := List.nodup_finRange maxTimerNum
  rw [hsplit, List.nodup_middle, List.nodup_cons, List.mem_append, not_or] at hnodup
  obtain ⟨⟨hpre, hpost⟩, -⟩ := hnodup
  rw [hsplit, srvTimers_append, ← Nat.zero_add (s.timer t).services]
  -- the slots in front of it
  refine (does_of_leaves (ends_srvTimers hmakes hd hloop)
    (leaves_srvTimers hspares hused fun _ => hpre) (.refl _)).andThen fun s₁ h₁ => ?_
  have hused₁ : (s₁.timer t).used ≠ 0 := by
    rw [h₁.timer]
    exact hused
  rw [srvTimers, ← h₁.irqFlag, ← h₁.timer.services, ← Nat.add_zero (s₁.timer t).services]
  refine (does_srvTimer hspares hmakes hd h₁.loopOnly hused₁).andThen fun s₂ h₂ => ?_
  -- and those behind it
  have hv := h₁.timer.served.trans h₂.timer
  have hused₂ : (s₂.timer t).used ≠ 0 := by
    rw [hv, (served_used (hloop t hd hused)).1]
    exact hused
  rw [← h₂.irqFlag]
  exact does_of_leaves (ends_srvTimers hmakes hd h₂.loopOnly)
    (leaves_srvTimers hspares hused₂ fun _ => hpost) hv

/-- The device of the timer: behind it, nothing is announced. -/
theorem does_srvDevice {s : TimerState} (hloop : s.LoopOnly L) (hused : (s.timer t).used ≠ 0)
    (hirq : (s.dev t.dev).irqFlag ≠ 0) (hnum : (s.dev t.dev).timerNum > 0) :
    (srvDevice L proc t.dev s).Does L t s (s.timer t).served 0 (s.timer t).services := by
  unfold srvDevice
  rw [if_pos ⟨hirq, hnum⟩, ← Nat.add_zero (s.timer t).services]
  refine (does_srvTimers hspares hmakes hd hloop hused).andThen fun s' h => ?_
  refine ⟨clearIrq t.dev s', rfl, ⟨h.loopOnly.clearIrq t.dev, ?_, clearIrq_self t.dev s', ?_, ?_⟩, rfl⟩
  · rw [timer_clearIrq]
    exact h.timer
  · simp [clearIrq, TimerState.setDev]
  · simp [clearIrq, TimerState.setDev]

/-- **A pass** behind an announcement comes to its end, and serves the timer if it has run
out. -/
theorem timerSrv_does {s : TimerState} (hloop : s.LoopOnly L) (hused : (s.timer t).used ≠ 0)
    (hirq : (s.dev t.dev).irqFlag ≠ 0) (hnum : (s.dev t.dev).timerNum > 0) :
    (timerSrv L proc s).Does L t s (s.timer t).served 0 (s.timer t).services := by
  obtain ⟨pre, post, hsplit, hpre⟩ := List.eq_append_cons_of_mem hd
  have hmem : ∀ d, d ∈ pre ∨ d = t.dev ∨ d ∈ post → d ∈ L.devs := by
    intro d h
    rw [hsplit, List.mem_append, List.mem_cons]
    exact h
  rw [timerSrv, hsplit, srvDevices_append, ← Nat.zero_add (s.timer t).services]
  refine (does_of_leaves (ends_srvDevices hmakes (fun d h => hmem d (.inl h)) hloop)
    (leaves_srvDevices hspares hused fun h => absurd h hpre) (.refl _)).andThen fun s₁ h₁ => ?_
  have hused₁ : (s₁.timer t).used ≠ 0 := by
    rw [h₁.timer]
    exact hused
  rw [srvDevices, ← h₁.timer.services, ← Nat.add_zero (s₁.timer t).services]
  refine (does_srvDevice hspares hmakes hd h₁.loopOnly hused₁ (h₁.irqFlag ▸ hirq)
    (h₁.timerNum hnum)).andThen fun s₂ h₂ => ?_
  have hv := h₁.timer.served.trans h₂.timer
  have hused₂ : (s₂.timer t).used ≠ 0 := by
    rw [hv, (served_used (hloop t hd hused)).1]
    exact hused
  rw [← h₂.irqFlag]
  exact does_of_leaves (ends_srvDevices hmakes (fun d h => hmem d (.inr (.inr h))) h₂.loopOnly)
    (leaves_srvDevices hspares hused₂ fun _ => h₂.irqFlag) hv

end Pass

/-! ### The count -/

theorem toInt_toInt32 {x : UInt32} (h : x.toNat < 2 ^ 31) : x.toInt32.toInt = x.toNat := by
  show x.toBitVec.toInt = _
  rw [BitVec.toInt_eq_toNat_of_lt]
  · rfl
  · show 2 * x.toNat < 2 ^ 32
    omega

/-- From 2^31 on a number is negative. -/
theorem toInt_toInt32_neg {x : UInt32} (h : 2 ^ 31 ≤ x.toNat) : x.toInt32.toInt < 0 := by
  have hlt := x.toNat_lt
  show x.toBitVec.toInt < 0
  rw [BitVec.toInt_eq_toNat_cond, if_neg]
  · show (x.toNat : ℤ) - (2 ^ 32 : ℕ) < 0
    omega
  · show ¬ 2 * x.toNat < 2 ^ 32
    omega

/-- What is above zero does not wrap when a period is taken off. -/
theorem toInt_sub_of_pos {a : Int32} {p : UInt32} (ha : 0 < a.toInt) (hp : p.toNat < 2 ^ 31) :
    (a - p.toInt32).toInt = a.toInt - p.toNat := by
  have hlt := a.toInt_lt
  rw [Int32.toInt_sub, toInt_toInt32 hp, Int.bmod_eq_of_le] <;> omega

theorem ceil_le_iff {T P c : ℕ} (hP : 0 < P) : (T + P - 1) / P ≤ c ↔ T ≤ P * c := by
  rw [Nat.div_le_iff_le_mul_add_pred hP]
  omega

/-! ### Rounds -/

/-- `n` ticks of the device, with a pass behind each. -/
def rounds (d : Addr) : ℕ → List TimerOp
  | 0 => []
  | n + 1 => .doTimer d :: .timerSrv :: rounds d n

/-- After `n` rounds the timer has been served `n / ceil(T / P)` times, and the next tick takes
`P` off its count. -/
def Cadence (L : TimerDevList) (proc : TimeOutProc) (s : TimerState) (t : TID) (T P : ℕ) : Prop :=
  ∀ n, ∃ s' services,
    run (timerStep L proc) (some s) (rounds t.dev n) = some (some s', services) ∧
      servings t services = n / ((T + P - 1) / P) ∧
      ((doTimer s' t.dev).timer t).timeoutUs.toInt = (s'.timer t).timeoutUs.toInt - P

/-- The timer has counted `i` ticks since it was loaded. -/
structure Ticking (L : TimerDevList) (t : TID) (T P i : ℕ) (s : TimerState) : Prop where
  loopOnly : s.LoopOnly L
  used : (s.timer t).used ≠ 0
  fn : (s.timer t).fn ≠ none
  reload : (s.timer t).reloadTimeoutUs.toInt = T
  timeout : (s.timer t).timeoutUs.toInt = T - P * i
  periodUs : (s.dev t.dev).periodUs.toNat = P
  timerNum : (s.dev t.dev).timerNum > 0
  lt : i < (T + P - 1) / P

theorem timer_doTimer_self (s : TimerState) (t : TID) :
    (doTimer s t.dev).timer t = (s.timer t).count (s.dev t.dev).periodUs := by
  rw [timer_doTimer, if_pos rfl]

theorem irqFlag_doTimer (s : TimerState) (d : Addr) : ((doTimer s d).dev d).irqFlag = 1 ∧
    ((doTimer s d).dev d).periodUs = (s.dev d).periodUs ∧
    ((doTimer s d).dev d).timerNum = (s.dev d).timerNum := by
  simp [doTimer, TimerState.setDev]

namespace Ticking

variable {T P i : ℕ} {s : TimerState}

/-- **A tick** takes the period off. -/
theorem tick (h : Ticking L t T P i s) (hP : 0 < P) (hP' : P < 2 ^ 31) :
    (doTimer s t.dev).timer t
        = { s.timer t with timeoutUs := (s.timer t).timeoutUs - (s.dev t.dev).periodUs.toInt32 } ∧
      ((doTimer s t.dev).timer t).timeoutUs.toInt = (s.timer t).timeoutUs.toInt - P := by
  have hpos : 0 < (s.timer t).timeoutUs.toInt := by
    have hlt := (ceil_le_iff (T := T) (c := i) hP).not.mp (Nat.not_le.mpr h.lt)
    rw [h.timeout]
    have := Nat.not_le.mp hlt
    exact_mod_cast (by omega : (0 : ℤ) < (T : ℤ) - ((P * i : ℕ) : ℤ))
  have hcount : (doTimer s t.dev).timer t
      = { s.timer t with timeoutUs := (s.timer t).timeoutUs - (s.dev t.dev).periodUs.toInt32 } := by
    rw [timer_doTimer_self, Timer.count, if_pos ⟨h.used, Int32.lt_iff_toInt_lt.mpr hpos⟩]
  refine ⟨hcount, ?_⟩
  rw [hcount]
  show ((s.timer t).timeoutUs - (s.dev t.dev).periodUs.toInt32).toInt = _
  rw [toInt_sub_of_pos hpos (h.periodUs ▸ hP'), h.periodUs]

theorem timeout_tick (h : Ticking L t T P i s) (hP : 0 < P) (hP' : P < 2 ^ 31) :
    ((doTimer s t.dev).timer t).timeoutUs.toInt = T - (P * (i + 1) : ℕ) := by
  have hmul : ((P * (i + 1) : ℕ) : ℤ) = P * i + P := by push_cast; ring
  rw [(h.tick hP hP').2, h.timeout, hmul]
  omega

/-- **The timer has run out** with the last tick, and not before. -/
theorem due_iff (h : Ticking L t T P i s) (hP : 0 < P) (hP' : P < 2 ^ 31) :
    ((doTimer s t.dev).timer t).Due ↔ i + 1 = (T + P - 1) / P := by
  have htick := (h.tick hP hP').1
  have hlt := h.lt
  have hceil := ceil_le_iff (T := T) (c := i + 1) hP
  have hle : ((doTimer s t.dev).timer t).timeoutUs ≤ 0 ↔ T ≤ P * (i + 1) := by
    rw [Int32.le_iff_toInt_le, h.timeout_tick hP hP']
    show (T : ℤ) - _ ≤ 0 ↔ _
    omega
  constructor
  · intro hdue
    have := hceil.mpr (hle.mp hdue.2.1)
    omega
  · intro heq
    refine ⟨?_, hle.mpr (hceil.mp heq.ge), ?_⟩
    · rw [htick]
      exact h.used
    · rw [htick]
      exact h.fn

/-- **A round**: the timer is served when its last tick has come. -/
theorem round (h : Ticking L t T P i s) (hspares : proc.Spares t) (hmakes : proc.MakesLoop)
    (hd : t.dev ∈ L.devs) (hP : 0 < P) (hP' : P < 2 ^ 31) :
    ∃ s' services, timerSrv L proc (doTimer s t.dev) = (some s', services) ∧
      Ticking L t T P ((i + 1) % ((T + P - 1) / P)) s' ∧
      servings t services = (i + 1) / ((T + P - 1) / P) := by
  have hdue := h.due_iff hP hP'
  have hlt := h.lt
  generalize hc : (T + P - 1) / P = c at hdue hlt ⊢
  have htick := (h.tick hP hP').1
  have htimeout := h.timeout_tick hP hP'
  obtain ⟨hirq, hperiod, hnum⟩ := irqFlag_doTimer s t.dev
  have hused : ((doTimer s t.dev).timer t).used ≠ 0 := by
    rw [htick]
    exact h.used
  have hirq' : ((doTimer s t.dev).dev t.dev).irqFlag ≠ 0 := by
    rw [hirq]
    decide
  have hloop := h.loopOnly.doTimer t.dev
  obtain ⟨s', hs', hdone, hservings⟩ :=
    timerSrv_does hspares hmakes hd hloop hused hirq' (hnum ▸ h.timerNum)
  obtain ⟨hsused, -, hsfn, hsreload, hstimeout⟩ := served_used (hloop t hd hused)
  have hreload : ((doTimer s t.dev).timer t).reloadTimeoutUs.toInt = T := by
    rw [htick]
    exact h.reload
  refine ⟨s', _, Prod.ext hs' rfl, ?_, ?_⟩
  · have hfields : (s'.timer t).used = (s.timer t).used ∧ (s'.timer t).fn = (s.timer t).fn ∧
        (s'.timer t).reloadTimeoutUs = (s.timer t).reloadTimeoutUs ∧
        (s'.timer t).timeoutUs = ((doTimer s t.dev).timer t).served.timeoutUs := by
      rw [hdone.timer]
      refine ⟨?_, ?_, ?_, rfl⟩
      · show ((doTimer s t.dev).timer t).served.used = _
        rw [hsused, htick]
      · show ((doTimer s t.dev).timer t).served.fn = _
        rw [hsfn, htick]
      · show ((doTimer s t.dev).timer t).served.reloadTimeoutUs = _
        rw [hsreload, htick]
    obtain ⟨hused', hfn', hreload', htimeout'⟩ := hfields
    refine ⟨hdone.loopOnly, hused' ▸ h.used, hfn' ▸ h.fn, hreload' ▸ h.reload, ?_, ?_,
      hdone.timerNum (hnum ▸ h.timerNum), ?_⟩
    · rw [htimeout', hstimeout]
      by_cases hlast : i + 1 = c
      · rw [if_pos (hdue.mpr hlast), hreload, hlast, Nat.mod_self]
        simp
      · rw [if_neg (hdue.not.mpr hlast), htimeout, Nat.mod_eq_of_lt (by omega)]
        push_cast
        ring
    · rw [hdone.periodUs, hperiod, h.periodUs]
    · rw [hc]
      exact Nat.mod_lt _ (Nat.zero_lt_of_lt hlt)
  · rw [hservings, Timer.services]
    by_cases hlast : i + 1 = c
    · rw [if_pos (hdue.mpr hlast), hlast, Nat.div_self (hlast ▸ Nat.succ_pos i)]
    · rw [if_neg (hdue.not.mpr hlast), Nat.div_eq_of_lt (by omega)]

/-- **Rounds.** -/
theorem rounds (hspares : proc.Spares t) (hmakes : proc.MakesLoop) (hd : t.dev ∈ L.devs)
    (hP : 0 < P) (hP' : P < 2 ^ 31) (n : ℕ) :
    ∀ {i : ℕ} {s : TimerState}, Ticking L t T P i s → ∃ s' services,
      run (timerStep L proc) (some s) (Start01.rounds t.dev n) = some (some s', services) ∧
        Ticking L t T P ((i + n) % ((T + P - 1) / P)) s' ∧
        servings t services = (i + n) / ((T + P - 1) / P) := by
  obtain ⟨c, hc⟩ : ∃ c, c = (T + P - 1) / P := ⟨_, rfl⟩
  rw [← hc]
  induction n with
  | zero =>
    intro i s h
    have hlt := h.lt
    rw [← hc] at hlt
    refine ⟨s, [], rfl, ?_, ?_⟩
    · rw [Nat.add_zero, Nat.mod_eq_of_lt hlt]
      exact h
    · rw [Nat.add_zero, Nat.div_eq_of_lt hlt]
      rfl
  | succ n ih =>
    intro i s h
    obtain ⟨s₁, o₁, hs₁, h₁, ho₁⟩ := h.round hspares hmakes hd hP hP'
    rw [← hc] at h₁ ho₁
    obtain ⟨s', o, hs', h', ho⟩ := ih h₁
    have hsum : i + (n + 1) = (i + 1) + n := by omega
    have hpos : 0 < c := by
      have := h.lt
      omega
    refine ⟨s', o₁ ++ o, ?_, ?_, ?_⟩
    · exact run_cons_eq_some.mpr ⟨_, [], o₁ ++ o, rfl,
        run_cons_eq_some.mpr ⟨_, o₁, o, congrArg some hs₁, hs', rfl⟩, rfl⟩
    · rw [hsum, ← Nat.mod_add_mod]
      exact h'
    · have hsplit : (i + 1 + n) / c = (i + 1) / c + ((i + 1) % c + n) / c := by
        rw [← Nat.mul_add_div hpos, ← Nat.add_assoc, Nat.div_add_mod]
      rw [servings, List.countP_append, ← servings, ← servings, ho₁, ho, hsum, hsplit]

end Ticking

/-! ### Timers that are not served so -/

theorem ne_api_of_mem_rounds {d : Addr} {n : ℕ} {op : TimerOp} (h : op ∈ rounds d n) (c : ApiCall) :
    op ≠ .api c := by
  induction n with
  | zero => exact absurd h List.not_mem_nil
  | succ n ih =>
    rcases List.mem_cons.mp h with rfl | h
    · exact nofun
    · rcases List.mem_cons.mp h with rfl | h
      · exact nofun
      · exact ih h

/-- The timer is in use and has no function. -/
def Idle (t : TID) (st : Option TimerState) : Prop :=
  ∀ s, st = some s → (s.timer t).used ≠ 0 ∧ (s.timer t).fn = none

/-- **A timer without a function** is never served. -/
theorem Idle.rounds (hspares : proc.Spares t) (d : Addr) (n : ℕ) {st st' : Option TimerState}
    {services : List Service} (h : Idle t st)
    (hrun : run (timerStep L proc) st (rounds d n) = some (st', services)) :
    servings t services = 0 := by
  have hstep : ∀ st op st' o, Idle t st → (∀ c, op ≠ .api c) ∧ True →
      timerStep L proc st op = some (st', o) → Idle t st' ∧ ∀ sv ∈ o, sv.timer ≠ t := by
    rintro (_ | s) op st' o h ⟨hop, -⟩ heq
    · obtain ⟨rfl, rfl⟩ := Prod.mk.injEq .. ▸ Option.some.inj heq
      exact ⟨h, fun _ hsv => absurd hsv List.not_mem_nil⟩
    · obtain ⟨hused, hfn⟩ := h s rfl
      cases op with
      | api c => exact absurd rfl (hop c)
      | doTimer d =>
        obtain ⟨rfl, rfl⟩ := Prod.mk.injEq .. ▸ Option.some.inj heq
        refine ⟨fun s' hs' => ?_, fun _ hsv => absurd hsv List.not_mem_nil⟩
        obtain rfl := Option.some.inj hs'
        rw [timer_doTimer]
        split
        · rw [Timer.count_used, Timer.count_fn]
          exact ⟨hused, hfn⟩
        · exact ⟨hused, hfn⟩
      | timerSrv =>
        obtain ⟨hI, hQ⟩ := leaves_of_not_due (L := L) hspares hused fun hdue => hdue.2.2 hfn
        rw [Option.some.inj heq] at hI hQ
        refine ⟨fun s' hs' => ?_, hQ⟩
        rw [hI s' hs']
        exact ⟨hused, hfn⟩
  have halong : Along (timerStep L proc) (fun _ op => (∀ c, op ≠ .api c) ∧ True) st
      (Start01.rounds d n) :=
    Along.and_inputs (fun _ hop => ne_api_of_mem_rounds hop) (along_of_forall (fun _ _ => trivial) _ st)
  have hQ := (run_along (P := Idle t) hstep h halong hrun).2
  exact List.countP_eq_zero.mpr fun sv hsv => by simpa using hQ sv hsv

/-- One round. -/
theorem run_doTimer_timerSrv {s : TimerState} {d : Addr} {st : Option TimerState}
    {services : List Service}
    (h : run (timerStep L proc) (some s) (rounds d 1) = some (st, services)) :
    services = (timerSrv L proc (doTimer s d)).2 := by
  obtain ⟨s₁, o₁, o₂, htick, hrun, rfl⟩ := run_cons_eq_some.mp h
  obtain ⟨rfl, rfl⟩ := Prod.mk.injEq .. ▸ Option.some.inj htick
  obtain ⟨s₂, o₃, o₄, hsrv, hend, rfl⟩ := run_cons_eq_some.mp hrun
  obtain ⟨-, rfl⟩ := Prod.mk.injEq .. ▸ Option.some.inj hend
  rw [List.nil_append, List.append_nil]
  exact (congrArg Prod.snd (Option.some.inj hsrv)).symm

/-! ### A new timer -/

/-- The timer has just been created. -/
structure JustCreated (t : TID) (timeoutUs : UInt32) (timerCb arg : Option Addr) (s : TimerState) :
    Prop where
  timer : s.timer t = newTimer t.id timeoutUs timerCb arg loop
  timerNum : (s.dev t.dev).timerNum > 0

theorem justCreated_of_createTimer {s₀ s : TimerState} {d : Addr} {timeoutUs : UInt32}
    {timerCb arg : Option Addr}
    (h : createTimer s₀ (some d) timeoutUs timerCb arg loop = (some (some t), s)) :
    t.dev = d ∧ JustCreated t timeoutUs timerCb arg s := by
  obtain ⟨-, heq⟩ | ⟨-, -, heq⟩ | ⟨id, s', hnum, -, heq, htimer, hdev⟩ :=
    createTimer_some s₀ d timeoutUs timerCb arg loop
  · exact absurd (heq.symm.trans h) nofun
  · exact absurd (heq.symm.trans h) nofun
  · obtain ⟨ht, rfl⟩ := Prod.mk.injEq .. ▸ heq.symm.trans h
    obtain rfl := Option.some.inj (Option.some.inj ht)
    refine ⟨rfl, by rw [htimer, if_pos rfl], ?_⟩
    rw [(hdev d).2, if_pos rfl]
    exact timerNum_succ_pos hnum

namespace JustCreated

variable {s : TimerState} {timeoutUs : UInt32} {timerCb arg : Option Addr} {P : ℕ}

theorem used (h : JustCreated t timeoutUs timerCb arg s) : (s.timer t).used ≠ 0 := by
  rw [h.timer]
  exact nofun

/-- Below 2^31 the timeout is counted down. -/
theorem ticking (h : JustCreated t timeoutUs timerCb arg s) (hloop : s.LoopOnly L)
    (hbig : timeoutUs.toNat < 2 ^ 31) (hcb : timerCb ≠ none) (hT : 0 < timeoutUs.toNat)
    (hP : 0 < (s.dev t.dev).periodUs.toNat) :
    Ticking L t timeoutUs.toNat (s.dev t.dev).periodUs.toNat 0 s := by
  refine ⟨hloop, h.used, ?_, ?_, ?_, rfl, h.timerNum, ?_⟩
  · rw [h.timer]
    exact hcb
  · rw [h.timer]
    exact toInt_toInt32 hbig
  · rw [h.timer]
    show timeoutUs.toInt32.toInt = _
    rw [toInt_toInt32 hbig]
    simp
  · by_contra hzero
    have := (ceil_le_iff hP).mp (Nat.not_lt.mp hzero)
    omega

/-- From 2^31 on it is negative, and the timer is served at the first tick. -/
theorem servings_first (h : JustCreated t timeoutUs timerCb arg s) (hspares : proc.Spares t)
    (hmakes : proc.MakesLoop) (hd : t.dev ∈ L.devs) (hloop : s.LoopOnly L)
    (hbig : 2 ^ 31 ≤ timeoutUs.toNat) (hcb : timerCb ≠ none) :
    servings t (timerSrv L proc (doTimer s t.dev)).2 = 1 := by
  have hle : (s.timer t).timeoutUs ≤ 0 := by
    rw [h.timer, Int32.le_iff_toInt_le]
    exact (toInt_toInt32_neg hbig).le
  have hsame : (doTimer s t.dev).timer t = s.timer t := by
    rw [timer_doTimer_self, Timer.count_of_le hle]
  obtain ⟨hirq, -, hnum⟩ := irqFlag_doTimer s t.dev
  have hirq' : ((doTimer s t.dev).dev t.dev).irqFlag ≠ 0 := by
    rw [hirq]
    decide
  have hdue : (s.timer t).Due := ⟨h.used, hle, by rw [h.timer]; exact hcb⟩
  obtain ⟨-, -, -, hservings⟩ := timerSrv_does hspares hmakes hd (hloop.doTimer t.dev)
    (hsame ▸ h.used) hirq' (hnum ▸ h.timerNum)
  rw [hservings, hsame, Timer.services, if_pos hdue]

/-- Without a function it stands idle. -/
theorem idle (h : JustCreated t timeoutUs none arg s) : Idle t (some s) := by
  intro s' hs'
  obtain rfl := Option.some.inj hs'
  exact ⟨h.used, by rw [h.timer]; rfl⟩

end JustCreated

/-- **The cadence of a `LOOP` timer**, created on a registered device with `LOOP` timers only:
every `ceil(T / P)` ticks if and only if the timeout is below 2^31 and there is a function to
call. -/
theorem timerSrv_cadence_iff {s₀ s : TimerState} {d : Addr} {timeoutUs : UInt32}
    {timerCb arg : Option Addr} (hd : d ∈ L.devs)
    (hcreate : createTimer s₀ (some d) timeoutUs timerCb arg loop = (some (some t), s))
    (hloop : s.LoopOnly L) (hspares : proc.Spares t) (hmakes : proc.MakesLoop)
    (hT : 0 < timeoutUs.toNat) (hP : 0 < (s.dev d).periodUs.toNat)
    (hP' : (s.dev d).periodUs.toNat < 2 ^ 31) :
    Cadence L proc s t timeoutUs.toNat (s.dev d).periodUs.toNat ↔
      timeoutUs.toNat < 2 ^ 31 ∧ timerCb ≠ none := by
  obtain ⟨rfl, hnew⟩ := justCreated_of_createTimer hcreate
  constructor
  · intro hcad
    have hceil := fun k => ceil_le_iff (T := timeoutUs.toNat) (c := k) hP
    unfold Cadence at hcad
    generalize (timeoutUs.toNat + (s.dev t.dev).periodUs.toNat - 1)
      / (s.dev t.dev).periodUs.toNat = c at hcad hceil
    have hcpos : 0 < c := by
      by_contra hzero
      have := (hceil 0).mp (by omega)
      omega
    have hcb : timerCb ≠ none := by
      rintro rfl
      obtain ⟨s', services, hrun, hservings, -⟩ := hcad c
      rw [hnew.idle.rounds hspares t.dev c hrun, Nat.div_self hcpos] at hservings
      cases hservings
    refine ⟨?_, hcb⟩
    -- else the timer is served at the first tick, though its timeout is more than a period
    by_contra hbig
    obtain ⟨s', services, hrun, hservings, -⟩ := hcad 1
    have hc2 : 1 < c := by
      by_contra hle
      have := (hceil 1).mp (by omega)
      omega
    rw [Nat.div_eq_of_lt hc2, run_doTimer_timerSrv hrun,
      hnew.servings_first hspares hmakes hd hloop (Nat.not_lt.mp hbig) hcb] at hservings
    cases hservings
  · rintro ⟨hbig, hcb⟩ n
    obtain ⟨s', services, hrun, hend, hservings⟩ :=
      Ticking.rounds hspares hmakes hd hP hP' n (hnew.ticking hloop hbig hcb hT hP)
    rw [Nat.zero_add] at hservings
    exact ⟨s', services, hrun, hservings, (hend.tick hP hP').2⟩

/-- What is left of the data segment behind a `create_timer` of a first `LOOP` timer. -/
theorem loopOnly_first (L : TimerDevList) (periodUs timeoutUs : UInt32) (dev timerCb arg : Option Addr) :
    (createTimer (.reset periodUs) dev timeoutUs timerCb arg loop).2.LoopOnly L :=
  TimerState.LoopOnly.createTimer (fun _ _ hused => absurd rfl hused) dev timeoutUs timerCb arg

/-- 12 ms by a tick of 5 ms: every third tick. -/
theorem timerSrv_cadence_12ms : Cadence oneTimerDevice (fun _ _ _ _ => [])
    (createTimer (.reset 5000) (some 2000) 12000 (some 77) (some 5) loop).2 firstTimer 12000 5000 := by
  have hnone : ∀ P : ApiCall → Prop, ∀ (f : Addr) (tid : Addr) (arg : Option Addr) (s : TimerState),
      ∀ c ∈ (fun _ _ _ _ => [] : TimeOutProc) f tid arg s, P c :=
    fun _ _ _ _ _ _ hc => absurd hc List.not_mem_nil
  have hiff := @timerSrv_cadence_iff oneTimerDevice (fun _ _ _ _ => []) firstTimer (.reset 5000) _
    2000 12000 (some 77) (some 5) List.mem_cons_self rfl
    (loopOnly_first _ 5000 12000 (some 2000) (some 77) (some 5)) (hnone _) (hnone _)
    (by decide) (by decide) (by decide)
  exact hiff.mpr (by decide)

/-- A timeout of 2^31 us, some 36 minutes, is served at the first tick. -/
theorem timeout_negative :
    ¬ ∀ (L : TimerDevList) (proc : TimeOutProc) (t : TID) (s₀ s : TimerState) (d : Addr)
      (timeoutUs : UInt32) (timerCb arg : Option Addr), d ∈ L.devs →
      createTimer s₀ (some d) timeoutUs timerCb arg loop = (some (some t), s) → s.LoopOnly L →
      proc.Spares t → proc.MakesLoop → 0 < timeoutUs.toNat → timerCb ≠ none →
      0 < (s.dev d).periodUs.toNat → (s.dev d).periodUs.toNat < 2 ^ 31 →
      Cadence L proc s t timeoutUs.toNat (s.dev d).periodUs.toNat := by
  intro hall
  obtain ⟨s', services, hrun, hservings, -⟩ := hall oneTimerDevice (fun _ _ _ _ => []) firstTimer
    (.reset 5000) _ 2000 2147483648 (some 77) (some 5) List.mem_cons_self rfl
    (loopOnly_first _ 5000 2147483648 (some 2000) (some 77) (some 5))
    (fun _ _ _ _ _ hc => absurd hc List.not_mem_nil) (fun _ _ _ _ _ hc => absurd hc List.not_mem_nil)
    (by decide) (by decide) (by decide) (by decide) 1
  have honce := read_run (fun r : Option TimerState × List Service => servings firstTimer r.2) hrun
    (v := 1) (by decide)
  exact absurd (honce.symm.trans hservings) (by decide)

end Start01
