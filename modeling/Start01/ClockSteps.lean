/-
Start01/ClockSteps.lean

`get_time_ns` cut into its steps.  The main loop calls it inside `mdelay` and
`stm32_uart_getstring`, and the receive interrupt of the UART calls it as well, between any
two of these steps; the interrupt's call is one step.

The two calls share `cycle_last` and `time_ns`, and nothing keeps them apart.  An interrupt
between the reading of the counter and the storing of `cycle_last` makes the difference of
the readings wrap, or counts the same ticks twice; one between the reading of `time_ns` and
its writing back is undone.  Where no interrupt with ticks of its own falls there, the time
is never ahead of the counter and never goes back (`time_never_ahead`).

The ghosts `last` and `readAt` are the tick at which the counter was read for `cycle_last`,
and the one at which the main loop last read it.
-/
import Start01.Clock

namespace Start01

open Run

/-! ### The steps -/

/-- Where the main loop is in its call: the locals it still needs. -/
inductive TimePc
  | idle
  | read (cycleNow : UInt64)
  | delta (cycleNow cycleDelta : UInt64)
  | stored (nsOffset : UInt32)
  | sum (timeNs : UInt64)
  | written
deriving DecidableEq

/-- The clock, and where the program is in `get_time_ns`, with two ghosts. -/
structure ClockRun where
  sys : ClockSys
  pc : TimePc
  last : ℕ
  readAt : ℕ

namespace ClockRun

/-- `time_ns`. -/
def time (s : ClockRun) : ℕ := s.sys.clock.timeNs.toNat

/-- `cs->read() & cs->mask`. -/
def reading (s : ClockRun) : UInt64 := imxClocksourceRead s.sys.ticks &&& s.sys.clock.cs.mask

/-- The next step of the main loop. -/
def main (s : ClockRun) : ClockRun :=
  let c := s.sys.clock
  match s.pc with
  -- `cycle_now = cs->read() & cs->mask`
  | .idle => { s with pc := .read s.reading, readAt := s.sys.ticks }
  -- `cycle_delta = ((cycle_now - cs->cycle_last) & cs->mask)`
  | .read cycleNow => { s with pc := .delta cycleNow ((cycleNow - c.cs.cycleLast) &&& c.cs.mask) }
  -- `ns_offset = cyc2ns(cs, cycle_delta)`, and `cs->cycle_last = cycle_now`
  | .delta cycleNow cycleDelta =>
    { s with
      sys := ⟨s.sys.ticks, { c with cs := { c.cs with cycleLast := cycleNow } }⟩
      pc := .stored (cyc2ns c.cs cycleDelta)
      last := s.readAt }
  -- `time_ns += ns_offset`, in two steps
  | .stored nsOffset => { s with pc := .sum (c.timeNs + nsOffset.toUInt64) }
  | .sum timeNs => { s with sys := ⟨s.sys.ticks, { c with timeNs := timeNs }⟩, pc := .written }
  -- `return time_ns`
  | .written => { s with pc := .idle }

/-- The interrupt: a call of `get_time_ns`. -/
def irq (s : ClockRun) : ClockRun :=
  { s with
    sys := ⟨s.sys.ticks, (getTimeNs s.sys.clock (imxClocksourceRead s.sys.ticks)).2⟩
    last := s.sys.ticks }

/-- `d` ticks pass. -/
def tick (s : ClockRun) (d : ℕ) : ClockRun := { s with sys := ⟨s.sys.ticks + d, s.sys.clock⟩ }

end ClockRun

/-- The steps of the program, of the interrupt and of the timer. -/
inductive ClockOp
  | main
  | irq
  | tick (d : ℕ)
deriving DecidableEq

/-- One of these steps. -/
def clockStep (s : ClockRun) : ClockOp → Option ClockRun
  | .main => some s.main
  | .irq => some s.irq
  | .tick d => some (s.tick d)

/-- After `clocksource_init`. -/
def ClockRun.boot (sys : ClockSys) : ClockRun := ⟨sys, .idle, 0, 0⟩

/-! ### What is asked of a run -/

/-- At most 65535 ticks pass from one update to the next, and the true time fits in 64
bits. -/
def Paced (s : ClockRun) : ClockOp → Prop
  | .tick _ => True
  | .main => (s.pc = .idle → s.sys.ticks - s.last ≤ 65535) ∧
      s.sys.ticks * s.sys.clock.cs.mult.toNat < 2 ^ 10 * 2 ^ 64
  | .irq => s.sys.ticks - s.last ≤ 65535 ∧
      s.sys.ticks * s.sys.clock.cs.mult.toNat < 2 ^ 10 * 2 ^ 64

/-- The interrupt does not cut into a call: behind the reading of the counter it comes before
the counter moves, behind the difference only if there is no tick since the last update, and
behind the reading of `time_ns` only if its ticks come to no more than the main loop's. -/
def Apart (s : ClockRun) : ClockOp → Prop
  | .irq =>
    match s.pc with
    | .read cycleNow => s.reading = cycleNow
    | .delta _ _ => s.reading = s.sys.clock.cs.cycleLast
    | .sum timeNs =>
      s.time + advance s.sys.clock.cs.mult.toNat (s.sys.ticks - s.last) ≤ timeNs.toNat
    | _ => True
  | _ => True

/-- The time is not ahead of the counter. -/
def ClockRun.NotAhead (s : ClockRun) : Prop :=
  2 ^ 10 * s.time ≤ s.sys.ticks * s.sys.clock.cs.mult.toNat

/-! ### The invariant -/

/-- What the main loop still holds for the ticks up to `last`. -/
def ClockRun.Holding (s : ClockRun) : Prop :=
  let mult := s.sys.clock.cs.mult.toNat
  match s.pc with
  | .idle | .written => 2 ^ 10 * s.time ≤ s.last * mult
  | .read cycleNow => 2 ^ 10 * s.time ≤ s.last * mult ∧ cycleNow.toNat = s.readAt % 2 ^ 16 ∧
      s.last ≤ s.readAt ∧ s.readAt ≤ s.sys.ticks ∧ s.readAt - s.last ≤ 65535
  | .delta cycleNow cycleDelta => 2 ^ 10 * s.time ≤ s.last * mult ∧
      cycleNow.toNat = s.readAt % 2 ^ 16 ∧ s.readAt ≤ s.sys.ticks ∧
      s.readAt = s.last + cycleDelta.toNat ∧ cycleDelta.toNat < 2 ^ 16
  | .stored nsOffset => 2 ^ 10 * (s.time + nsOffset.toNat) ≤ s.last * mult
  | .sum timeNs => s.time ≤ timeNs.toNat ∧ 2 ^ 10 * timeNs.toNat ≤ s.last * mult

/-- The invariant of a run: the counter read last is not ahead of the timer. -/
structure ClockSound (s : ClockRun) : Prop where
  shift : s.sys.clock.cs.shift = 10
  mask : s.sys.clock.cs.mask = 0xFFFF
  last_le : s.last ≤ s.sys.ticks
  cycleLast : s.sys.clock.cs.cycleLast.toNat = s.last % 2 ^ 16
  holding : s.Holding

/-- After `clocksource_init`. -/
theorem ClockSound.boot {hz : UInt32} {sys : ClockSys} (hinit : clocksourceInit hz = some sys) :
    ClockSound (.boot sys) := by
  obtain ⟨mult, -, rfl⟩ := Option.map_eq_some_iff.mp hinit
  refine ⟨rfl, ?_, le_rfl, rfl, ?_⟩
  · show clocksourceMask 16 = 0xFFFF
    decide
  · show 2 ^ 10 * 0 ≤ 0 * mult.toNat
    omega

/-- What is added for `d` ticks is never too much: what does not fit in 32 bits is lost. -/
theorem mul_toNat_cyc2ns_le {cs : Clocksource} (hshift : cs.shift = 10) {cycles : UInt64}
    (hcycles : cycles.toNat < 2 ^ 16) :
    2 ^ 10 * (cyc2ns cs cycles).toNat ≤ cycles.toNat * cs.mult.toNat := by
  rw [toNat_cyc2ns hshift hcycles]
  calc 2 ^ 10 * (advance cs.mult.toNat cycles.toNat % 2 ^ 32)
      ≤ 2 ^ 10 * advance cs.mult.toNat cycles.toNat := Nat.mul_le_mul_left _ (Nat.mod_le _ _)
    _ ≤ cycles.toNat * cs.mult.toNat := Nat.mul_div_le _ _

namespace ClockSound

variable {s : ClockRun}

/-- The ticks up to `last` are not all the ticks. -/
theorem last_mul_le (h : ClockSound s) (mult : ℕ) : s.last * mult ≤ s.sys.ticks * mult :=
  Nat.mul_le_mul_right mult h.last_le

/-- In every place `time_ns` is behind the ticks up to `last`. -/
theorem time_le (h : ClockSound s) : 2 ^ 10 * s.time ≤ s.last * s.sys.clock.cs.mult.toNat := by
  obtain ⟨sys, pc, last, readAt⟩ := s
  have hold := h.holding
  cases pc with
  | idle | written => exact hold
  | read | delta => exact hold.1
  | stored nsOffset =>
    exact (Nat.mul_le_mul_left _ (Nat.le_add_right _ nsOffset.toNat)).trans hold
  | sum timeNs =>
    obtain ⟨hle, hsum⟩ := hold
    exact (Nat.mul_le_mul_left _ hle).trans hsum

theorem notAhead (h : ClockSound s) : s.NotAhead := h.time_le.trans (h.last_mul_le _)

theorem tick (h : ClockSound s) (d : ℕ) : ClockSound (s.tick d) := by
  refine ⟨h.shift, h.mask, h.last_le.trans (Nat.le_add_right _ d), h.cycleLast, ?_⟩
  obtain ⟨sys, pc, last, readAt⟩ := s
  have hold := h.holding
  cases pc with
  | idle | written | stored | sum => exact hold
  | read => exact ⟨hold.1, hold.2.1, hold.2.2.1, hold.2.2.2.1.trans (Nat.le_add_right _ d), hold.2.2.2.2⟩
  | delta => exact ⟨hold.1, hold.2.1, hold.2.2.1.trans (Nat.le_add_right _ d), hold.2.2.2⟩

theorem toNat_reading (h : ClockSound s) : s.reading.toNat = s.sys.ticks % 2 ^ 16 := by
  rw [ClockRun.reading, h.mask]
  exact toNat_read s.sys.ticks

/-- The interrupt counts the ticks since `last`, and they are no more than there were. -/
theorem irq_time (h : ClockSound s) (hpace : Paced s .irq) :
    ∃ o, s.irq.time = s.time + o ∧ o ≤ advance s.sys.clock.cs.mult.toNat (s.sys.ticks - s.last) ∧
      2 ^ 10 * o ≤ (s.sys.ticks - s.last) * s.sys.clock.cs.mult.toNat := by
  obtain ⟨hticks, hfits⟩ := hpace
  have hsub := Nat.add_sub_cancel' h.last_le
  have hnow := h.toNat_reading
  rw [← hsub] at hnow
  have hdelta := toNat_delta hnow h.cycleLast
  have hlt : s.sys.ticks - s.last < 2 ^ 16 := by omega
  rw [Nat.mod_eq_of_lt hlt] at hdelta
  have hns := mul_toNat_cyc2ns_le h.shift (by rw [hdelta]; exact hlt)
  rw [hdelta] at hns
  refine ⟨_, ?_, (Nat.le_div_iff_mul_le (by decide)).mpr (Nat.mul_comm _ _ ▸ hns), hns⟩
  have htime := h.time_le
  have hmul : s.sys.ticks * s.sys.clock.cs.mult.toNat =
      s.last * s.sys.clock.cs.mult.toNat +
        (s.sys.ticks - s.last) * s.sys.clock.cs.mult.toNat := by
    rw [← Nat.add_mul, hsub]
  have hirq : s.irq.sys.clock.timeNs = s.sys.clock.timeNs +
      (cyc2ns s.sys.clock.cs ((s.reading - s.sys.clock.cs.cycleLast) &&& 0xFFFF)).toUInt64 := by
    rw [← h.mask]
    rfl
  rw [ClockRun.time, hirq, UInt64.toNat_add, UInt32.toNat_toUInt64]
  apply Nat.mod_eq_of_lt
  unfold ClockRun.time at htime
  omega

/-- What the interrupt adds and what the main loop is about to add. -/
theorem stored_irq {time time' o ns ticks last mult : ℕ}
    (hmul : ticks * mult = last * mult + (ticks - last) * mult) (htime : time' = time + o)
    (ho : 2 ^ 10 * o ≤ (ticks - last) * mult) (hold : 2 ^ 10 * (time + ns) ≤ last * mult) :
    2 ^ 10 * (time' + ns) ≤ ticks * mult := by
  rw [htime, hmul]
  omega

/-- **The interrupt**, where it does not cut in. -/
theorem irq (h : ClockSound s) (hpace : Paced s .irq) (hapart : Apart s .irq) :
    ClockSound s.irq ∧ s.time ≤ s.irq.time := by
  obtain ⟨o, htime, hadv, ho⟩ := h.irq_time hpace
  refine ⟨⟨h.shift, h.mask, le_rfl, ?_, ?_⟩, by omega⟩
  · exact h.toNat_reading
  · have hreading := h.toNat_reading
    have hlast := h.cycleLast
    have hlastle := h.last_le
    have hticks := hpace.1
    have hmul : s.sys.ticks * s.sys.clock.cs.mult.toNat =
        s.last * s.sys.clock.cs.mult.toNat +
          (s.sys.ticks - s.last) * s.sys.clock.cs.mult.toNat := by
      rw [← Nat.add_mul, Nat.add_sub_cancel' h.last_le]
    have hle := h.time_le
    have hnew : 2 ^ 10 * s.irq.time ≤ s.sys.ticks * s.sys.clock.cs.mult.toNat := by omega
    obtain ⟨sys, pc, last, readAt⟩ := s
    have hold := h.holding
    cases pc with
    | idle | written => exact hnew
    | read cycleNow =>
      obtain ⟨-, hcycle, hl, hr, -⟩ := hold
      have hsame : sys.ticks % 2 ^ 16 = readAt % 2 ^ 16 := by
        rw [← hcycle, ← hreading]
        exact congrArg UInt64.toNat hapart
      -- the counter stands where the main loop has read it
      have hat : sys.ticks = readAt := by
        simp only at hl hr hticks
        omega
      exact ⟨hnew, hcycle, hat.le, hat.ge, by simp only [ClockRun.irq]; omega⟩
    | delta cycleNow cycleDelta =>
      obtain ⟨-, hcycle, hr, hd, hlt⟩ := hold
      have hsame : sys.ticks % 2 ^ 16 = last % 2 ^ 16 := by
        rw [← hlast, ← hreading]
        exact congrArg UInt64.toNat hapart
      have hat : sys.ticks = last := by
        simp only at hlastle hticks
        omega
      exact ⟨hnew, hcycle, hr, by simp only [ClockRun.irq, hat] at hd ⊢; exact hd, hlt⟩
    | stored nsOffset => exact stored_irq hmul htime ho hold
    | sum timeNs =>
      refine ⟨htime.le.trans ((Nat.add_le_add_left hadv _).trans hapart), hold.2.trans ?_⟩
      exact Nat.mul_le_mul_right _ hlastle

/-- **The main loop.** -/
theorem main (h : ClockSound s) (hpace : Paced s .main) :
    ClockSound s.main ∧ s.time ≤ s.main.time := by
  obtain ⟨sys, pc, last, readAt⟩ := s
  have hold := h.holding
  have hlast := h.last_le
  cases pc with
  | idle =>
    refine ⟨⟨h.shift, h.mask, h.last_le, h.cycleLast, ?_⟩, le_rfl⟩
    exact ⟨hold, h.toNat_reading, hlast, le_rfl, hpace.1 rfl⟩
  | read cycleNow =>
    obtain ⟨hle, hcycle, hl, hr, hticks⟩ := hold
    refine ⟨⟨h.shift, h.mask, h.last_le, h.cycleLast, ?_⟩, le_rfl⟩
    simp only at hl hr hticks
    have hdelta := toNat_delta (t := last) (d := readAt - last)
      (by rw [Nat.add_sub_cancel' hl]; exact hcycle) h.cycleLast
    rw [← h.mask, Nat.mod_eq_of_lt (by omega)] at hdelta
    refine ⟨hle, hcycle, hr, ?_, by rw [hdelta]; omega⟩
    rw [hdelta]
    exact (Nat.add_sub_cancel' hl).symm
  | delta cycleNow cycleDelta =>
    obtain ⟨hle, hcycle, hr, hd, hlt⟩ := hold
    refine ⟨⟨h.shift, h.mask, hr, hcycle, ?_⟩, le_rfl⟩
    have hns := mul_toNat_cyc2ns_le h.shift hlt
    show 2 ^ 10 * (_ + (cyc2ns sys.clock.cs cycleDelta).toNat) ≤ readAt * _
    simp only at hd hle hns
    rw [hd, Nat.add_mul, Nat.mul_add]
    exact Nat.add_le_add hle hns
  | stored nsOffset =>
    refine ⟨⟨h.shift, h.mask, h.last_le, h.cycleLast, ?_⟩, le_rfl⟩
    have hfits := hpace.2
    have hmul := h.last_mul_le sys.clock.cs.mult.toNat
    replace hold : 2 ^ 10 * (sys.clock.timeNs.toNat + nsOffset.toNat) ≤
      last * sys.clock.cs.mult.toNat := hold
    have hsum : (sys.clock.timeNs + nsOffset.toUInt64).toNat =
        sys.clock.timeNs.toNat + nsOffset.toNat := by
      rw [UInt64.toNat_add, UInt32.toNat_toUInt64]
      apply Nat.mod_eq_of_lt
      simp only at hmul hfits
      omega
    exact ⟨by rw [hsum]; exact Nat.le_add_right _ _, by rw [hsum]; exact hold⟩
  | sum timeNs =>
    exact ⟨⟨h.shift, h.mask, h.last_le, h.cycleLast, hold.2⟩, hold.1⟩
  | written => exact ⟨⟨h.shift, h.mask, h.last_le, h.cycleLast, hold⟩, le_rfl⟩

/-- **One step.** -/
theorem step (h : ClockSound s) {op : ClockOp} {s' : ClockRun} (hpace : Paced s op)
    (hapart : Apart s op) (hstep : clockStep s op = some s') :
    ClockSound s' ∧ s.time ≤ s'.time := by
  cases op with
  | main =>
    obtain rfl := Option.some.inj hstep
    exact h.main hpace
  | irq =>
    obtain rfl := Option.some.inj hstep
    exact h.irq hpace hapart
  | tick d =>
    obtain rfl := Option.some.inj hstep
    exact ⟨h.tick d, le_rfl⟩

end ClockSound

/-! ### The clock under interrupts -/

/-- **Two contexts.**  In every run whose interrupts do not cut into a call of the main loop,
the time never goes back, and it is never ahead of the counter. -/
theorem time_never_ahead {hz : UInt32} {sys : ClockSys} {ops₁ ops₂ : List ClockOp}
    {s₁ s₂ : ClockRun} (hinit : clocksourceInit hz = some sys)
    (hmeets : Meets clockStep (fun s op => Paced s op ∧ Apart s op) (.boot sys) (ops₁ ++ ops₂))
    (h₁ : exec clockStep (.boot sys) ops₁ = some s₁) (h₂ : exec clockStep s₁ ops₂ = some s₂) :
    s₁.time ≤ s₂.time ∧ s₂.NotAhead := by
  obtain ⟨hmeets₁, hmeets₂⟩ := Meets.of_append h₁ hmeets
  have hsound₁ : ClockSound s₁ := by
    refine exec_invariant ?_ (.boot hinit) hmeets₁ h₁
    intro s op s' h hC hstep
    exact (h.step hC.1 hC.2 hstep).1
  have hend : ClockSound s₂ ∧ s₁.time ≤ s₂.time := by
    refine exec_invariant (P := fun s => ClockSound s ∧ s₁.time ≤ s.time) ?_ ⟨hsound₁, le_rfl⟩
      hmeets₂ h₂
    rintro s op s' ⟨h, hle⟩ hC hstep
    obtain ⟨h', hle'⟩ := h.step hC.1 hC.2 hstep
    exact ⟨h', hle.trans hle'⟩
  exact ⟨hend.2, hend.1.notAhead⟩

instance (s : ClockRun) (op : ClockOp) : Decidable (Paced s op) :=
  match op with
  | .tick _ => .isTrue trivial
  | .main => inferInstanceAs (Decidable (_ ∧ _))
  | .irq => inferInstanceAs (Decidable (_ ∧ _))

instance (s : ClockRun) (op : ClockOp) : Decidable (Apart s op) :=
  match s, op with
  | _, .main | _, .tick _ => .isTrue trivial
  | ⟨_, .idle, _, _⟩, .irq | ⟨_, .stored _, _, _⟩, .irq | ⟨_, .written, _, _⟩, .irq =>
    .isTrue trivial
  | ⟨_, .read _, _, _⟩, .irq | ⟨_, .delta _ _, _, _⟩, .irq => instDecidableEqUInt64 _ _
  | ⟨_, .sum _, _, _⟩, .irq => Nat.decLe _ _

/-- The timer at 72 MHz. -/
def sys72 : ClockSys := ⟨0, ⟨10, 14222, 0, 0xFFFF⟩, 0⟩

theorem clocksourceInit_72 : clocksourceInit 72000000 = some sys72 := by
  have hmult : clocksourceHz2mult 72000000 10 = some 14222 := by decide +kernel
  rw [clocksourceInit, hmult]
  rfl

/-- The interrupt comes right behind the reading of the counter, and again with ticks of its
own between the storing of `cycle_last` and the addition. -/
theorem time_never_ahead_72MHz : ∃ s₁ s₂,
    exec clockStep (.boot sys72) [.tick 72, .main, .irq, .main, .main] = some s₁ ∧
      exec clockStep s₁ [.tick 72, .irq, .main, .main, .main] = some s₂ ∧
      s₁.time ≤ s₂.time ∧ s₂.NotAhead := by
  refine ⟨_, _, rfl, rfl, ?_⟩
  have hmeets : Meets clockStep (fun s op => Paced s op ∧ Apart s op) (.boot sys72)
      ([.tick 72, .main, .irq, .main, .main] ++ [.tick 72, .irq, .main, .main, .main]) := by
    decide +kernel
  exact time_never_ahead clocksourceInit_72 hmeets rfl rfl

/-- One tick between the reading of the counter and the interrupt, and the difference wraps:
the time is 65535 ticks ahead.  And an interrupt between the reading of `time_ns` and its
writing back: the time goes back by what the interrupt has added. -/
theorem time_ahead :
    (¬ ∀ (hz : UInt32) (sys : ClockSys) (ops : List ClockOp) (s : ClockRun),
      clocksourceInit hz = some sys → Meets clockStep Paced (.boot sys) ops →
      exec clockStep (.boot sys) ops = some s → s.NotAhead) ∧
    ¬ ∀ (hz : UInt32) (sys : ClockSys) (ops₁ ops₂ : List ClockOp) (s₁ s₂ : ClockRun),
      clocksourceInit hz = some sys → Meets clockStep Paced (.boot sys) (ops₁ ++ ops₂) →
      exec clockStep (.boot sys) ops₁ = some s₁ → exec clockStep s₁ ops₂ = some s₂ →
      s₁.time ≤ s₂.time := by
  constructor
  · intro hall
    have h := hall 72000000 sys72 [.main, .tick 1, .irq, .main, .main, .main, .main] _
      clocksourceInit_72 (by decide +kernel) rfl
    unfold ClockRun.NotAhead at h
    exact absurd h (by decide +kernel)
  · intro hall
    have h := hall 72000000 sys72 [.tick 1, .main, .main, .main, .main, .tick 100, .irq] [.main] _ _
      clocksourceInit_72 (by decide +kernel) rfl rfl
    exact absurd h (by decide +kernel)

end Start01
