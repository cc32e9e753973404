/-
Start01/TimerStop.lean

Stopping a timer.  `timer_stop` sets the `suspend` flag of the timer and calls the driver;
neither `do_timer` nor `timer_srv` reads the flag.  A stopped timer therefore stands still
only as long as its device does not tick while it counts, and no pass comes while it has run
out and its device announces something (`timer_stop_holds`).

The functions of a driver are parameters; they see to the hardware, and leave the devices of
timer.c as they are.  `timer_start` looks whether there is one, `timer_stop` does not.
-/
import Start01.TimerCadence

namespace Start01

open Run

variable {L : TimerDevList} {proc : TimeOutProc} {t : TID}

/-! ### Starting and stopping -/

/-- `dev->start` and `dev->stop`. -/
structure TimerDriver where
  start : Option (TID → TimerState → TimerState)
  stop : Option (TID → TimerState → TimerState)

/-- The driver leaves the devices of timer.c as they are. -/
structure TimerDriver.Hardware (drv : TimerDriver) : Prop where
  start : ∀ f, drv.start = some f → ∀ t s, (f t s).dev = s.dev
  stop : ∀ f, drv.stop = some f → ∀ t s, (f t s).dev = s.dev

/-- `timer_start`, with the call of the driver. -/
def timerStartVia (drv : Addr → TimerDriver) (s : TimerState) (dev : Option Addr)
    (timer : Option TID) : TimerState :=
  match timer, dev with
  | some t, some d =>
    match (drv d).start with
    | some start => start t (timerStart s (some d) (some t))
    | none => timerStart s (some d) (some t)
  | _, _ => s

/-- `timer_stop`, with the call of the driver; `none` is the call through NULL. -/
def timerStopVia (drv : Addr → TimerDriver) (s : TimerState) (dev : Option Addr)
    (timer : Option TID) : Option TimerState :=
  match timer, dev with
  | some t, some d => (drv d).stop.map fun stop => stop t (timerStop s (some d) (some t))
  | _, _ => some s

theorem timer_of_dev_eq {s s' : TimerState} (h : s'.dev = s.dev) (u : TID) :
    s'.timer u = s.timer u := by
  rw [TimerState.timer, h]
  rfl

theorem timer_setSuspend (s : TimerState) (d : Addr) (v : UInt8) (u : TID) :
    (setSuspend s (some d) (some t) v).timer u
      = if u = t then { s.timer t with suspend := v } else s.timer u :=
  TimerState.timer_setTimer s t u _

/-- What `timer_start` writes. -/
theorem timer_timerStartVia {drv : Addr → TimerDriver} (hdrv : ∀ d, (drv d).Hardware)
    (s : TimerState) (d : Addr) (u : TID) :
    (timerStartVia drv s (some d) (some t)).timer u
      = if u = t then { s.timer t with suspend := 0 } else s.timer u := by
  rw [← timer_setSuspend s d 0 u]
  unfold timerStartVia
  dsimp only
  cases hstart : (drv d).start with
  | none => rfl
  | some f => exact timer_of_dev_eq ((hdrv d).start f hstart _ _) u

/-- What `timer_stop` writes. -/
theorem timer_timerStopVia {drv : Addr → TimerDriver} (hdrv : ∀ d, (drv d).Hardware)
    {s s' : TimerState} {d : Addr} (h : timerStopVia drv s (some d) (some t) = some s') (u : TID) :
    s'.timer u = if u = t then { s.timer t with suspend := 1 } else s.timer u := by
  rw [← timer_setSuspend s d 1 u]
  obtain ⟨f, hstop, rfl⟩ := Option.map_eq_some_iff.mp h
  exact timer_of_dev_eq ((hdrv d).stop f hstop _ _) u

/-! ### Standing still -/

/-- The step does not touch the timer: no tick while it counts, no pass while it is due and
announced, and no call that resets it. -/
def Asleep (L : TimerDevList) (t : TID) : Option TimerState → TimerOp → Prop
  | some s, .doTimer d => t.dev = d → (s.timer t).timeoutUs > 0 → (s.dev d).periodUs = 0
  | some s, .timerSrv => (s.timer t).Due → t.dev ∈ L.devs → (s.dev t.dev).irqFlag = 0
  | some _, .api c => c.Spares t
  | none, _ => True

/-- The timer is in use, and its count stands at `count`. -/
def StandsAt (t : TID) (count : Int32) (st : Option TimerState) : Prop :=
  ∀ s, st = some s → (s.timer t).used ≠ 0 ∧ (s.timer t).timeoutUs = count

theorem StandsAt.of_sameBut {count : Int32} {s s' : TimerState} (h : StandsAt t count (some s))
    (hsame : (s.timer t).SameBut (s'.timer t)) : StandsAt t count (some s') := by
  intro s'' hs''
  obtain rfl := Option.some.inj hs''
  rw [hsame]
  exact h s rfl

/-- A period of zero takes nothing off. -/
theorem Timer.count_zero (v : Timer) : v.count 0 = v := by
  unfold Timer.count
  split
  · have hzero : v.timeoutUs - (0 : UInt32).toInt32 = v.timeoutUs := Int32.sub_zero v.timeoutUs
    rw [hzero]
  · rfl

/-- **One step.** -/
theorem StandsAt.step (hspares : proc.Spares t) {count : Int32} {st st' : Option TimerState}
    {op : TimerOp} {services : List Service} (h : StandsAt t count st) (hop : Asleep L t st op)
    (heq : timerStep L proc st op = some (st', services)) :
    StandsAt t count st' ∧ ∀ sv ∈ services, sv.timer ≠ t := by
  cases st with
  | none =>
    obtain ⟨rfl, rfl⟩ := Prod.mk.injEq .. ▸ Option.some.inj heq
    exact ⟨h, fun _ hsv => absurd hsv List.not_mem_nil⟩
  | some s =>
    obtain ⟨hused, -⟩ := h s rfl
    cases op with
    | api c =>
      obtain ⟨rfl, rfl⟩ := Prod.mk.injEq .. ▸ Option.some.inj heq
      exact ⟨h.of_sameBut (undisturbed_apiCall hused hop).timer,
        fun _ hsv => absurd hsv List.not_mem_nil⟩
    | doTimer d =>
      obtain ⟨rfl, rfl⟩ := Prod.mk.injEq .. ▸ Option.some.inj heq
      refine ⟨h.of_sameBut ?_, fun _ hsv => absurd hsv List.not_mem_nil⟩
      have hcount : (doTimer s d).timer t = s.timer t := by
        rw [timer_doTimer]
        split
        · rename_i hd
          by_cases hpos : (s.timer t).timeoutUs > 0
          · rw [hop hd hpos, Timer.count_zero]
          · exact Timer.count_of_le (Int32.not_lt.mp hpos) _
        · rfl
      rw [hcount]
      exact .refl _
    | timerSrv =>
      have hsrv := Option.some.inj heq
      by_cases hdue : (s.timer t).Due
      · obtain ⟨hI, hQ⟩ := leaves_of_clear (L := L) hspares hused (hop hdue)
        rw [hsrv] at hI hQ
        exact ⟨fun s' hs' => h.of_sameBut (hI s' hs').timer s' rfl, hQ⟩
      · obtain ⟨hI, hQ⟩ := leaves_of_not_due (L := L) hspares hused hdue
        rw [hsrv] at hI hQ
        exact ⟨fun s' hs' => h.of_sameBut (hI s' hs') s' rfl, hQ⟩

/-- **Stopping a timer.**  Starting and stopping change no other timer; and in a run that does
not touch the stopped timer, it is not served, and its count stands. -/
theorem timer_stop_holds {drv : Addr → TimerDriver} (hdrv : ∀ d, (drv d).Hardware)
    (hspares : proc.Spares t) {s s₁ : TimerState} {d : Addr} (hused : (s.timer t).used ≠ 0)
    (hstop : timerStopVia drv s (some d) (some t) = some s₁) :
    (∀ u, u ≠ t → s₁.timer u = s.timer u ∧
      (timerStartVia drv s (some d) (some t)).timer u = s.timer u) ∧
    ∀ ops st services, Along (timerStep L proc) (Asleep L t) (some s₁) ops →
      run (timerStep L proc) (some s₁) ops = some (st, services) →
      (∀ sv ∈ services, sv.timer ≠ t) ∧
        ∀ s', st = some s' → (s'.timer t).timeoutUs = (s.timer t).timeoutUs := by
  constructor
  · intro u hu
    rw [timer_timerStopVia hdrv hstop, timer_timerStartVia hdrv, if_neg hu, if_neg hu]
    exact ⟨rfl, rfl⟩
  · intro ops st services halong hrun
    have hstart : StandsAt t (s.timer t).timeoutUs (some s₁) := by
      intro s' hs'
      obtain rfl := Option.some.inj hs'
      rw [timer_timerStopVia hdrv hstop, if_pos rfl]
      exact ⟨hused, rfl⟩
    obtain ⟨hend, hQ⟩ := run_along (P := StandsAt t (s.timer t).timeoutUs)
      (fun _ _ _ _ h hop heq => h.step hspares hop heq) hstart halong hrun
    exact ⟨hQ, fun s' hs' => (hend s' hs').2⟩

instance (st : Option TimerState) (op : TimerOp) : Decidable (Asleep L t st op) :=
  match st, op with
  | none, _ => .isTrue trivial
  | some _, .doTimer _ => inferInstanceAs (Decidable (_ → _ → _))
  | some _, .timerSrv => inferInstanceAs (Decidable (_ → _ → _))
  | some _, .api (.timerReset timer) => inferInstanceAs (Decidable (timer ≠ some t))
  | some _, .api (.createTimer ..) | some _, .api (.timerStart ..) | some _, .api (.timerStop ..) =>
    .isTrue trivial

/-- A driver that has nothing to do. -/
def idleDriver (_ : Addr) : TimerDriver := ⟨none, some fun _ s => s⟩

theorem idleDriver_hardware (d : Addr) : (idleDriver d).Hardware where
  start _ h := nomatch h
  stop f h t s := by
    obtain rfl := Option.some.inj h
    rfl

/-- A `LOOP` timer of 5 ms. -/
def firstLoop : TimerState :=
  (createTimer (.reset 5000) (some 2000) 5000 (some 77) (some 5) loop).2

/-- The timer, stopped. -/
def firstStopped : TimerState := timerStop firstLoop (some 2000) (some firstTimer)

theorem spares_nil (t : TID) : TimeOutProc.Spares (fun _ _ _ _ => []) t :=
  fun _ _ _ _ _ hc => absurd hc List.not_mem_nil

/-- Another device ticks, and passes come. -/
theorem timer_stop_holds_other_device : ∃ st services,
    run (timerStep oneTimerDevice fun _ _ _ _ => []) (some firstStopped)
      [.timerSrv, .doTimer 3000, .timerSrv] = some (st, services) ∧
    (∀ sv ∈ services, sv.timer ≠ firstTimer) ∧
    ∀ s', st = some s' → (s'.timer firstTimer).timeoutUs = (firstLoop.timer firstTimer).timeoutUs := by
  refine ⟨_, _, rfl, ?_⟩
  have hquiet := @timer_stop_holds oneTimerDevice (fun _ _ _ _ => []) firstTimer idleDriver
    idleDriver_hardware (spares_nil _) firstLoop firstStopped 2000 (by decide) rfl
  exact hquiet.2 [.timerSrv, .doTimer 3000, .timerSrv] _ _ (by decide) rfl

/-- Stopped, the timer counts down at the next tick, and is served at the next pass. -/
theorem stopped_timer_served :
    ¬ ∀ (L : TimerDevList) (proc : TimeOutProc) (t : TID) (drv : Addr → TimerDriver)
      (s s₁ : TimerState) (d : Addr), (∀ d, (drv d).Hardware) → proc.Spares t →
      (s.timer t).used ≠ 0 → timerStopVia drv s (some d) (some t) = some s₁ →
      ∀ ops st services, (∀ op ∈ ops, ∀ c, op ≠ .api c) →
        run (timerStep L proc) (some s₁) ops = some (st, services) →
        (∀ sv ∈ services, sv.timer ≠ t) ∧
          ∀ s', st = some s' → (s'.timer t).timeoutUs = (s.timer t).timeoutUs := by
  intro hall
  have hstop := hall oneTimerDevice (fun _ _ _ _ => []) firstTimer idleDriver firstLoop firstStopped
    2000 idleDriver_hardware (spares_nil _) (by decide) rfl
  have hserved : (run (timerStep oneTimerDevice fun _ _ _ _ => []) (some firstStopped)
      [.doTimer 2000, .timerSrv]).map (fun r => servings firstTimer r.2) = some 1 := by decide
  obtain ⟨⟨st, services⟩, hrun, hone⟩ := Option.map_eq_some_iff.mp hserved
  have hnone := (hstop _ st services (fun _ hop => ne_api_of_mem_rounds (n := 1) hop) hrun).1
  have hzero : servings firstTimer services = 0 :=
    List.countP_eq_zero.mpr fun sv hsv => by simpa using hnone sv hsv
  exact absurd (hzero.symm.trans hone) (by decide)

end Start01
