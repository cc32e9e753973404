/-
Start01/Clock.lean

The clock of clock.c and clocksource.c.  A 16-bit timer counts up and wraps; `get_time_ns`
takes the ticks since its last call from the difference of two readings, modulo 2^16, and
adds what they come to in nanoseconds, by a multiplication and a shift.

`ticks` is a ghost: the ticks since `clocksource_init` started the timer, of which the
counter shows the low 16 bits.

As long as no more than 65535 ticks pass between two calls, no tick is lost, and of each
call's ticks less than a nanosecond is cut off (`getTimeNs_advances`).  The time itself is
a 64-bit number and comes round after 2^64 nanoseconds (`time_comes_round`).
-/
import Start01.Div64
import Start01.Lib.Run

namespace Start01

open Run

/-! ### clock.h and clock.c -/

/-- `struct clocksource`, without `read`. -/
structure Clocksource where
  shift : UInt32
  mult : UInt32
  cycleLast : UInt64
  mask : UInt64

/-- `CLOCKSOURCE_MASK(bits)`. -/
def clocksourceMask (bits : UInt64) : UInt64 := if bits < 64 then (1 <<< bits) - 1 else -1

/-- `cyc2ns`; the value returned has 32 bits. -/
def cyc2ns (cs : Clocksource) (cycles : UInt64) : UInt32 :=
  ((cycles * cs.mult.toUInt64) >>> cs.shift.toUInt64).toUInt32

/-- The object `current_clock` points to, and `time_ns`. -/
structure Clock where
  cs : Clocksource
  timeNs : UInt64

/-- `get_time_ns`, where `cs->read()` returns `read`. -/
def getTimeNs (c : Clock) (read : UInt64) : UInt64 × Clock :=
  let cycleNow := read &&& c.cs.mask
  let cycleDelta := (cycleNow - c.cs.cycleLast) &&& c.cs.mask
  let nsOffset := (cyc2ns c.cs cycleDelta).toUInt64
  let timeNs := c.timeNs + nsOffset
  (timeNs, ⟨{ c.cs with cycleLast := cycleNow }, timeNs⟩)

/-- `clocksource_hz2mult`. -/
def clocksourceHz2mult (hz shiftConstant : UInt32) : Option UInt32 :=
  let tmp := (1000000000 : UInt64) <<< shiftConstant.toUInt64
  (doDiv (tmp + (hz / 2).toUInt64) hz).map fun r => r.1.toUInt32

/-! ### clocksource.c -/

/-- The clock and the timer TIM6. -/
structure ClockSys where
  ticks : ℕ
  clock : Clock

/-- `TIM_GetCounter(TIM6)`; the period is 0xFFFF. -/
def timGetCounter (ticks : ℕ) : UInt16 := UInt16.ofNat ticks

/-- `imx_clocksource_read`. -/
def imxClocksourceRead (ticks : ℕ) : UInt64 := (timGetCounter ticks).toUInt64

/-- `clocksource_init`, with a timer that runs at `hz`. -/
def clocksourceInit (hz : UInt32) : Option ClockSys :=
  (clocksourceHz2mult hz 10).map fun mult =>
    ⟨0, ⟨10, mult, 0, clocksourceMask 16⟩, 0⟩

/-- `d` ticks pass, and `get_time_ns` is called. -/
def ClockSys.call (s : ClockSys) (d : ℕ) : Option (ClockSys × List UInt64) :=
  let r := getTimeNs s.clock (imxClocksourceRead (s.ticks + d))
  some (⟨s.ticks + d, r.2⟩, [r.1])

/-! ### The multiplier -/

/-- **`clocksource_hz2mult`** at shift 10 is 2^10 nanoseconds to a tick, rounded. -/
theorem clocksourceHz2mult_eq {hz : UInt32} (hlo : 1000000 ≤ hz.toNat) :
    ∃ mult, clocksourceHz2mult hz 10 = some mult ∧
      mult.toNat = (1000000000 * 2 ^ 10 + hz.toNat / 2) / hz.toNat ∧ mult.toNat ≤ 1024000 := by
  have hlt := hz.toNat_lt
  have hne : hz ≠ 0 := by
    rintro rfl
    exact absurd hlo (by decide)
  have hbase : ((1000000000 : UInt64) <<< (10 : UInt32).toUInt64).toNat = 1000000000 * 2 ^ 10 := by
    decide
  have hhalf : (hz / 2).toUInt64.toNat = hz.toNat / 2 := by
    rw [UInt32.toNat_toUInt64, UInt32.toNat_div]
    rfl
  have hsum : ((1000000000 : UInt64) <<< (10 : UInt32).toUInt64 + (hz / 2).toUInt64).toNat
      = 1000000000 * 2 ^ 10 + hz.toNat / 2 := by
    rw [UInt64.toNat_add, hbase, hhalf]
    omega
  obtain ⟨q, r, heq, hq, -⟩ := doDiv_eq ((1000000000 : UInt64) <<< (10 : UInt32).toUInt64 +
    (hz / 2).toUInt64) hne
  rw [hsum] at hq
  have hle : q.toNat ≤ 1024000 := by
    rw [hq]
    apply Nat.le_of_lt_succ
    apply Nat.div_lt_of_lt_mul
    omega
  have hmult : q.toUInt32.toNat = q.toNat := by
    rw [UInt64.toNat_toUInt32]
    omega
  refine ⟨q.toUInt32, ?_, hmult.trans hq, hmult ▸ hle⟩
  simp only [clocksourceHz2mult, heq, Option.map_some]

/-! ### One call -/

/-- What `d` ticks come to. -/
def advance (mult d : ℕ) : ℕ := d * mult / 2 ^ 10

/-- The clock source as it was set up, `cycle_last` being the counter at the last call. -/
structure Synced (mult : ℕ) (s : ClockSys) : Prop where
  shift : s.clock.cs.shift = 10
  mult : s.clock.cs.mult.toNat = mult
  mask : s.clock.cs.mask = 0xFFFF
  cycleLast : s.clock.cs.cycleLast.toNat = s.ticks % 2 ^ 16

theorem toNat_and_mask (a : UInt64) : (a &&& 0xFFFF).toNat = a.toNat % 2 ^ 16 := by
  rw [UInt64.toNat_and]
  exact Nat.and_two_pow_sub_one_eq_mod a.toNat 16

theorem toNat_read (ticks : ℕ) : (imxClocksourceRead ticks &&& 0xFFFF).toNat = ticks % 2 ^ 16 := by
  rw [toNat_and_mask, imxClocksourceRead, UInt16.toNat_toUInt64, timGetCounter, UInt16.toNat_ofNat']
  omega

/-- The masked difference of two readings is the number of ticks between them. -/
theorem toNat_delta {now last : UInt64} {t d : ℕ} (hnow : now.toNat = (t + d) % 2 ^ 16)
    (hlast : last.toNat = t % 2 ^ 16) : ((now - last) &&& 0xFFFF).toNat = d % 2 ^ 16 := by
  rw [toNat_and_mask, UInt64.toNat_sub, hnow, hlast]
  omega

/-- The product fits in 64 bits. -/
theorem toNat_cyc2ns {cs : Clocksource} (hshift : cs.shift = 10) {cycles : UInt64}
    (hcycles : cycles.toNat < 2 ^ 16) :
    (cyc2ns cs cycles).toNat = advance cs.mult.toNat cycles.toNat % 2 ^ 32 := by
  have hmult := cs.mult.toNat_lt
  have hprod : (cycles * cs.mult.toUInt64).toNat = cycles.toNat * cs.mult.toNat := by
    rw [UInt64.toNat_mul, UInt32.toNat_toUInt64, Nat.mod_eq_of_lt]
    exact (Nat.mul_lt_mul_of_lt_of_lt hcycles hmult).trans (by decide)
  rw [cyc2ns, UInt64.toNat_toUInt32, UInt64.toNat_shiftRight, hprod, hshift]
  show (cycles.toNat * cs.mult.toNat) >>> 10 % 2 ^ 32 = _
  rw [Nat.shiftRight_eq_div_pow, advance]

/-- Over 2^16 ticks the nanoseconds fit in 32 bits. -/
theorem advance_lt {mult d : ℕ} (hmult : mult ≤ 1024000) (hd : d < 2 ^ 16) :
    advance mult d < 2 ^ 32 := by
  have hprod : d * mult ≤ 2 ^ 16 * 1024000 := Nat.mul_le_mul hd.le hmult
  unfold advance
  omega

/-- **One call** behind any number of ticks. -/
theorem Synced.call {mult : ℕ} {s : ClockSys} (h : Synced mult s) (hmult : mult ≤ 1024000) (d : ℕ) :
    ∃ s' t, s.call d = some (s', [t]) ∧ Synced mult s' ∧ s'.clock.timeNs = t ∧
      t.toNat = (s.clock.timeNs.toNat + advance mult (d % 2 ^ 16)) % 2 ^ 64 := by
  have hd := Nat.mod_lt d (show 0 < 2 ^ 16 by decide)
  have hnow := toNat_read (s.ticks + d)
  have hdelta := toNat_delta hnow h.cycleLast
  have hns := toNat_cyc2ns h.shift (by rw [hdelta]; exact hd)
  rw [hdelta, h.mult, Nat.mod_eq_of_lt (advance_lt hmult hd)] at hns
  refine ⟨_, _, rfl, ⟨h.shift, h.mult, h.mask, ?_⟩, rfl, ?_⟩
  · simp only [getTimeNs, h.mask]
    exact hnow
  · simp only [getTimeNs, h.mask]
    rw [UInt64.toNat_add, UInt32.toNat_toUInt64, hns]

/-! ### Runs -/

/-- The times returned behind the time `t`, one call for each number of ticks: nothing is
lost, nothing is counted twice, and the time does not go back. -/
structure InTime (mult : ℕ) (t : UInt64) (ds : List ℕ) (ts : List UInt64) : Prop where
  monotone : ((t :: ts).map UInt64.toNat).IsChain (· ≤ ·)
  advances : (t :: ts).map UInt64.toNat = ds.scanl (fun t d => t + advance mult d) t.toNat
  /-- After `k` calls the time lags by less than `k` nanoseconds. -/
  lag : ∀ k t', 0 < k → ((t :: ts).map UInt64.toNat)[k]? = some t' →
    2 ^ 10 * (t' - t.toNat) ≤ (ds.take k).sum * mult ∧
      (ds.take k).sum * mult < 2 ^ 10 * (t' - t.toNat + k)

/-- The same modulo 2^64, and as it stands until the time comes round. -/
structure InTimeMod (mult : ℕ) (t : UInt64) (ds : List ℕ) (ts : List UInt64) : Prop where
  advances : (t :: ts).map UInt64.toNat =
    ds.scanl (fun t d => (t + advance mult d) % 2 ^ 64) t.toNat
  inTime : t.toNat + (ds.map (advance mult)).sum < 2 ^ 64 → InTime mult t ds ts

/-- **Runs**, with any numbers of ticks between the calls. -/
theorem Synced.run {mult : ℕ} (hmult : mult ≤ 1024000) (ds : List ℕ) :
    ∀ {s : ClockSys}, Synced mult s → ∃ s' ts, run ClockSys.call s ds = some (s', ts) ∧
      Synced mult s' ∧ (s.clock.timeNs :: ts).map UInt64.toNat =
        (ds.map (· % 2 ^ 16)).scanl (fun t d => (t + advance mult d) % 2 ^ 64)
          s.clock.timeNs.toNat := by
  induction ds with
  | nil => exact fun {s} h => ⟨s, [], rfl, h, rfl⟩
  | cons d ds ih =>
    intro s h
    obtain ⟨s₁, t, hcall, h₁, htime, ht⟩ := h.call hmult d
    obtain ⟨s', ts, hrun, h', hts⟩ := ih h₁
    refine ⟨s', t :: ts, run_cons_eq_some.mpr ⟨s₁, [t], ts, hcall, hrun, rfl⟩, h', ?_⟩
    rw [htime, ht] at hts
    rw [List.map_cons, hts, List.map_cons, List.scanl_cons]

/-- The first time that has not come round is the first number: taking the remainder
changes nothing. -/
theorem scanl_mod {mult : ℕ} {ds : List ℕ} :
    ∀ {t : ℕ}, t + (ds.map (advance mult)).sum < 2 ^ 64 →
      ds.scanl (fun t d => (t + advance mult d) % 2 ^ 64) t =
        ds.scanl (fun t d => t + advance mult d) t := by
  induction ds with
  | nil => exact fun _ => rfl
  | cons d ds ih =>
    intro t h
    rw [List.map_cons, List.sum_cons] at h
    rw [List.scanl_cons, List.scanl_cons, Nat.mod_eq_of_lt (by omega), ih (by omega)]

/-- Sums that only grow. -/
theorem isChain_scanl (f : ℕ → ℕ) (ds : List ℕ) :
    ∀ t, (ds.scanl (fun t d => t + f d) t).IsChain (· ≤ ·) := by
  induction ds with
  | nil => exact fun t => .singleton t
  | cons d ds ih =>
    intro t
    cases ds with
    | nil => exact .cons_cons (Nat.le_add_right t _) (.singleton _)
    | cons d' ds =>
      have hrest := ih (t + f d)
      rw [List.scanl_cons] at hrest ⊢
      rw [List.scanl_cons]
      exact .cons_cons (Nat.le_add_right t _) hrest

theorem foldl_add_eq (f : ℕ → ℕ) (ds : List ℕ) (t : ℕ) :
    ds.foldl (fun t d => t + f d) t = t + (ds.map f).sum := by
  induction ds generalizing t with
  | nil => rfl
  | cons d ds ih => rw [List.foldl_cons, ih, List.map_cons, List.sum_cons, Nat.add_assoc]

/-- What is cut off: less than a nanosecond of each call. -/
theorem advance_sum_bounds (mult : ℕ) (ds : List ℕ) :
    2 ^ 10 * (ds.map (advance mult)).sum ≤ ds.sum * mult ∧
      ds.sum * mult + ds.length ≤ 2 ^ 10 * ((ds.map (advance mult)).sum + ds.length) := by
  induction ds with
  | nil => simp
  | cons d ds ih =>
    have hd : 2 ^ 10 * advance mult d + d * mult % 2 ^ 10 = d * mult := Nat.div_add_mod _ _
    have hlt := Nat.mod_lt (d * mult) (show 0 < 2 ^ 10 by decide)
    rw [List.map_cons, List.sum_cons, List.sum_cons, List.length_cons, Nat.add_mul]
    omega

/-- Until the time comes round. -/
theorem inTime_of_scanl {mult : ℕ} {t : UInt64} {ds : List ℕ} {ts : List UInt64}
    (h : (t :: ts).map UInt64.toNat = ds.scanl (fun t d => t + advance mult d) t.toNat) :
    InTime mult t ds ts where
  monotone := h ▸ isChain_scanl _ _ _
  advances := h
  lag := by
    intro k t' hk ht'
    rw [h, List.getElem?_scanl] at ht'
    split at ht'
    · rename_i hle
      rw [foldl_add_eq] at ht'
      obtain rfl := Option.some.inj ht'
      obtain ⟨hlo, hhi⟩ := advance_sum_bounds mult (ds.take k)
      rw [List.length_take_of_le hle] at hhi
      rw [Nat.add_sub_cancel_left]
      exact ⟨hlo, by omega⟩
    · cases ht'

/-! ### The clock -/

/-- After `clocksource_init`. -/
theorem clocksourceInit_synced {hz : UInt32} (hlo : 1000000 ≤ hz.toNat) :
    ∃ mult s, clocksourceHz2mult hz 10 = some mult ∧ clocksourceInit hz = some s ∧
      mult.toNat ≤ 1024000 ∧ Synced mult.toNat s ∧ s.clock.timeNs = 0 := by
  obtain ⟨mult, hmult, -, hle⟩ := clocksourceHz2mult_eq hlo
  have hmask : clocksourceMask 16 = 0xFFFF := by decide
  exact ⟨mult, ⟨0, ⟨10, mult, 0, clocksourceMask 16⟩, 0⟩, hmult, by rw [clocksourceInit, hmult]; rfl,
    hle, ⟨rfl, rfl, hmask, rfl⟩, rfl⟩

/-- **`get_time_ns`.**  At any rate of the timer from 1 MHz to 72 MHz, and whatever ticks
passed between the calls `pre` before: as long as no more than 65535 ticks pass between two
calls, each call advances the time by what its ticks come to, modulo 2^64; until the time
comes round, it never goes back, and after `k` calls it lags by less than `k` nanoseconds. -/
theorem getTimeNs_advances {hz : UInt32} (hlo : 1000000 ≤ hz.toNat) (_hhi : hz.toNat ≤ 72000000) :
    ∃ mult s₀, clocksourceHz2mult hz 10 = some mult ∧ clocksourceInit hz = some s₀ ∧
      s₀.clock.timeNs = 0 ∧ ∀ pre ds : List ℕ, (∀ d ∈ ds, d ≤ 65535) →
        ∃ s pts s' ts, run ClockSys.call s₀ pre = some (s, pts) ∧
          run ClockSys.call s ds = some (s', ts) ∧
          InTimeMod mult.toNat s.clock.timeNs ds ts := by
  obtain ⟨mult, s₀, hmult, hinit, hle, hsync, hzero⟩ := clocksourceInit_synced hlo
  refine ⟨mult, s₀, hmult, hinit, hzero, fun pre ds hds => ?_⟩
  obtain ⟨s, pts, hpre, hs, -⟩ := hsync.run hle pre
  obtain ⟨s', ts, hrun, -, hts⟩ := hs.run hle ds
  have hsame : ds.map (· % 2 ^ 16) = ds := by
    refine (List.map_congr_left fun d hd => ?_).trans (List.map_id ds)
    have := hds d hd
    exact Nat.mod_eq_of_lt (by omega)
  rw [hsame] at hts
  exact ⟨s, pts, s', ts, hpre, hrun, hts, fun hlt => inTime_of_scanl (hts.trans (scanl_mod hlt))⟩

theorem getTimeNs_advances_72MHz : ∃ s₀ s' ts, clocksourceInit 72000000 = some s₀ ∧
    run ClockSys.call s₀ [72, 65535, 1] = some (s', ts) ∧ InTime 14222 0 [72, 65535, 1] ts := by
  have h72 : clocksourceHz2mult 72000000 10 = some 14222 := by decide +kernel
  have hlo : 1000000 ≤ (72000000 : UInt32).toNat := by decide
  obtain ⟨mult, s₀, hmult, hinit, hzero, hall⟩ := getTimeNs_advances hlo (by decide)
  obtain rfl := Option.some.inj (h72.symm.trans hmult)
  obtain ⟨s, pts, s', ts, hpre, hrun, hin⟩ := hall [] [72, 65535, 1] (by decide)
  obtain ⟨rfl, -⟩ := Prod.mk.injEq .. ▸ Option.some.inj hpre
  rw [hzero] at hin
  exact ⟨s₀, s', ts, hinit, hrun, hin.inTime (by decide)⟩

/-- Equal steps, modulo 2^64. -/
theorem foldl_replicate_mod (f : ℕ → ℕ) (d n : ℕ) : ∀ {t : ℕ}, t < 2 ^ 64 →
    (List.replicate n d).foldl (fun t d => (t + f d) % 2 ^ 64) t = (t + n * f d) % 2 ^ 64 := by
  induction n with
  | zero => exact fun ht => by rw [Nat.zero_mul, Nat.add_zero, Nat.mod_eq_of_lt ht]; rfl
  | succ n ih =>
    intro t ht
    rw [List.replicate_succ, List.foldl_cons, ih (Nat.mod_lt _ (by decide)), Nat.mod_add_mod,
      Nat.succ_mul]
    congr 1
    omega

/-- At 1 MHz, with 65535 ticks between any two calls, the time goes back in the 281479271744th
call, after 584 years. -/
theorem time_comes_round : ¬ ∀ (hz mult : UInt32) (s₀ s' : ClockSys) (ds : List ℕ) (ts : List UInt64),
    1000000 ≤ hz.toNat → hz.toNat ≤ 72000000 → clocksourceHz2mult hz 10 = some mult →
    clocksourceInit hz = some s₀ → (∀ d ∈ ds, d ≤ 65535) →
    run ClockSys.call s₀ ds = some (s', ts) → InTime mult.toNat s₀.clock.timeNs ds ts := by
  intro hall
  have h1 : clocksourceHz2mult 1000000 10 = some 1024000 := by decide +kernel
  have hlo : 1000000 ≤ (1000000 : UInt32).toNat := by decide
  obtain ⟨mult, s₀, hmult, hinit, hle, hsync, hzero⟩ := clocksourceInit_synced hlo
  obtain rfl := Option.some.inj (h1.symm.trans hmult)
  obtain ⟨n, hn⟩ : ∃ n, n = 281479271742 := ⟨_, rfl⟩
  obtain ⟨s', ts, hrun, -, hts⟩ := hsync.run hle (List.replicate (n + 2) 65535)
  have hin := hall 1000000 1024000 s₀ s' _ ts hlo (by decide) h1 hinit
    (fun d hd => (List.eq_of_mem_replicate hd).le) hrun
  have hadv : advance (1024000 : UInt32).toNat (65535 % 2 ^ 16) = 65535000 := by decide
  have hmap : (List.replicate (n + 2) 65535).map (· % 2 ^ 16) =
      List.replicate (n + 2) (65535 % 2 ^ 16) := List.map_replicate
  rw [hmap, hzero] at hts
  -- the second number is what one call comes to, and the last one is less
  have hpair := List.isChain_iff_pairwise.mp hin.monotone
  rw [hzero, hts, List.replicate_succ, List.scanl_cons, List.pairwise_cons, List.replicate_succ,
    List.scanl_cons, List.pairwise_cons] at hpair
  have hlast := hpair.2.1 _ (List.mem_of_getLast? List.getLast?_scanl)
  rw [foldl_replicate_mod _ _ _ (Nat.mod_lt _ (by decide)), hadv, hn] at hlast
  exact absurd hlast (by decide)

end Start01
