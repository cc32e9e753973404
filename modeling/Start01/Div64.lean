/-
Start01/Div64.lean

div64.c, the division of a 64-bit number by a 32-bit one: the divisor is doubled until it
reaches the dividend, and halved again while it is subtracted.

The first lines take away what the high word gives, so that the quotient left to be found
fits in 32 bits; then the doubling neither stops too early nor runs over (`div64_32_eq`), and
what is shifted out or wraps is never needed (`lossless`).  A division by zero has no value,
and neither has a loop that has not ended after 64 rounds, which does not happen.
-/
import Mathlib.Tactic

namespace Start01

/-! ### div64.c -/

/-- `while ((int64_t)b > 0 && b < rem) { b = b+b; d = d+d; }` -/
def doubleUp (rem : UInt64) : ℕ → UInt64 → UInt64 → Option (UInt64 × UInt64)
  | 0, _, _ => none
  | fuel + 1, b, d =>
    if 0 < b.toInt64 ∧ b < rem then doubleUp rem fuel (b + b) (d + d) else some (b, d)

/-- `do { if (rem >= b) { rem -= b; res += d; } b >>= 1; d >>= 1; } while (d);`: what is in
`res` and in `rem` behind it. -/
def subtractDown : ℕ → UInt64 → UInt64 → UInt64 → UInt64 → Option (UInt64 × UInt64)
  | 0, _, _, _, _ => none
  | fuel + 1, rem, b, res, d =>
    let (rem, res) := if b ≤ rem then (rem - b, res + d) else (rem, res)
    let b := b >>> 1
    let d := d >>> 1
    if d ≠ 0 then subtractDown fuel rem b res d else some (res, rem)

/-- `__div64_32(n, base)`: what it leaves in `*n`, and the remainder it returns. -/
def div64_32 (n : UInt64) (base : UInt32) : Option (UInt64 × UInt32) :=
  if base = 0 then none
  else
    let high := (n >>> 32).toUInt32
    let (res, rem) :=
      if base ≤ high then
        ((high / base).toUInt64 <<< 32, n - (high / base * base).toUInt64 <<< 32)
      else (0, n)
    (doubleUp rem 64 base.toUInt64 1).bind fun (b, d) =>
      (subtractDown 64 rem b res d).map fun (res, rem) => (res, rem.toUInt32)

/-- `do_div(n, base)`: what it leaves in `n`, and the remainder. -/
def doDiv (n : UInt64) (base : UInt32) : Option (UInt64 × UInt32) :=
  if n >>> 32 = 0 then
    if base = 0 then none
    else some ((n.toUInt32 / base).toUInt64, n.toUInt32 % base)
  else div64_32 n base

/-! ### The two loops -/

variable {rem b res d : UInt64} {base : ℕ}

theorem zero_lt_toInt64 (b : UInt64) : 0 < b.toInt64 ↔ 0 < b.toNat ∧ b.toNat < 2 ^ 63 := by
  have hb := b.toNat_lt
  have hint : b.toInt64.toInt = b.toBitVec.toInt := rfl
  rw [Int64.lt_iff_toInt_lt, hint, BitVec.toInt]
  simp
  omega

theorem toNat_double (h : b.toNat < 2 ^ 63) : (b + b).toNat = 2 * b.toNat := by
  rw [UInt64.toNat_add]
  omega

theorem toNat_half (b : UInt64) : (b >>> 1).toNat = b.toNat / 2 := by
  rw [UInt64.toNat_shiftRight]
  exact Nat.shiftRight_eq_div_pow _ 1

/-- Half of a multiple of a power of two. -/
theorem toNat_half_mul {m k : ℕ} (hb : b.toNat = m * 2 ^ (k + 1)) : (b >>> 1).toNat = m * 2 ^ k := by
  rw [toNat_half, hb, pow_succ, ← mul_assoc]
  exact Nat.mul_div_cancel _ (by decide)

theorem toNat_half_pow {k : ℕ} (hd : d.toNat = 2 ^ (k + 1)) : (d >>> 1).toNat = 2 ^ k := by
  rw [toNat_half, hd, pow_succ]
  exact Nat.mul_div_cancel _ (by decide)

/-- Half of 1. -/
theorem half_eq_zero (hd : d.toNat = 2 ^ 0) : d >>> 1 = 0 := by
  rw [← UInt64.toNat_inj, toNat_half, hd]
  rfl

/-- The doubling ends at a power of two times the divisor that is not below half of
anything that is left. -/
theorem doubleUp_spec (hpos : 0 < base) : ∀ {fuel j : ℕ} {b d : UInt64}, 64 ≤ fuel + j →
    b.toNat = base * 2 ^ j → d.toNat = 2 ^ j →
    ∃ k b' d', doubleUp rem fuel b d = some (b', d') ∧ k ≤ 63 ∧ b'.toNat = base * 2 ^ k ∧
      d'.toNat = 2 ^ k ∧ rem.toNat < 2 * b'.toNat := by
  intro fuel
  induction fuel with
  | zero =>
    intro j b d hj hb hd
    have hlt := d.toNat_lt
    rw [hd] at hlt
    exact absurd ((Nat.pow_lt_pow_iff_right (by decide)).mp hlt) (by omega)
  | succ fuel ih =>
    intro j b d hj hb hd
    have hbpos : 0 < b.toNat := hb ▸ Nat.mul_pos hpos (Nat.two_pow_pos j)
    have hle : 2 ^ j ≤ b.toNat := hb ▸ Nat.le_mul_of_pos_left _ hpos
    by_cases hcond : 0 < b.toInt64 ∧ b < rem
    · have hb63 := ((zero_lt_toInt64 b).mp hcond.1).2
      rw [doubleUp, if_pos hcond]
      apply ih (j := j + 1) (by omega)
      · rw [toNat_double hb63, hb, pow_succ]
        ring
      · rw [toNat_double (by omega), hd, pow_succ, mul_comm]
    · refine ⟨j, b, d, by rw [doubleUp, if_neg hcond], ?_, hb, hd, ?_⟩
      · have hlt : 2 ^ j < 2 ^ 64 := hle.trans_lt b.toNat_lt
        have := (Nat.pow_lt_pow_iff_right (a := 2) (by decide)).mp hlt
        omega
      · rw [zero_lt_toInt64, UInt64.lt_iff_toNat_lt] at hcond
        have hrem := rem.toNat_lt
        omega

/-- One round: what is left and what has been counted still come to the same quotient and
remainder, and less than the divisor of the round is left. -/
theorem subtract_spec (hpos : 0 < base) {k : ℕ} (hb : b.toNat = base * 2 ^ k) (hd : d.toNat = 2 ^ k)
    (hrem : rem.toNat < 2 * b.toNat) (hres : res.toNat + rem.toNat / base < 2 ^ 64) :
    ∃ rem' res', (if b ≤ rem then (rem - b, res + d) else (rem, res)) = (rem', res') ∧
      rem'.toNat < b.toNat ∧ res'.toNat + rem'.toNat / base = res.toNat + rem.toNat / base ∧
      rem'.toNat % base = rem.toNat % base := by
  by_cases hle : b ≤ rem
  · have hle' := UInt64.le_iff_toNat_le.mp hle
    have hsub : (rem - b).toNat = rem.toNat - b.toNat := UInt64.toNat_sub_of_le _ _ hle
    -- the quotient of what is left, and the power of two that is counted now
    have hsplit : rem.toNat = (rem - b).toNat + base * 2 ^ k := by omega
    have hquot : rem.toNat / base = (rem - b).toNat / base + 2 ^ k := by
      rw [hsplit, Nat.add_mul_div_left _ _ hpos]
    rw [hquot] at hres
    have hadd : (res + d).toNat = res.toNat + 2 ^ k := by
      rw [UInt64.toNat_add, hd]
      exact Nat.mod_eq_of_lt ((Nat.add_le_add_left (Nat.le_add_left _ _) _).trans_lt hres)
    refine ⟨rem - b, res + d, if_pos hle, by omega, ?_, ?_⟩
    · rw [hadd, hquot]
      omega
    · rw [hsplit, Nat.add_mul_mod_self_left]
  · refine ⟨rem, res, if_neg hle, ?_, rfl, rfl⟩
    rw [UInt64.le_iff_toNat_le] at hle
    exact Nat.not_le.mp hle

/-- The subtractions find quotient and remainder. -/
theorem subtractDown_spec (hpos : 0 < base) : ∀ {k fuel : ℕ} {rem b res d : UInt64}, k < fuel →
    b.toNat = base * 2 ^ k → d.toNat = 2 ^ k → rem.toNat < 2 * b.toNat →
    res.toNat + rem.toNat / base < 2 ^ 64 →
    ∃ res' rem', subtractDown fuel rem b res d = some (res', rem') ∧
      res'.toNat = res.toNat + rem.toNat / base ∧ rem'.toNat = rem.toNat % base := by
  intro k
  induction k with
  | zero =>
    intro fuel rem b res d hk hb hd hrem hres
    obtain ⟨fuel, rfl⟩ := Nat.exists_eq_add_of_lt hk
    obtain ⟨rem', res', hround, hlt, hquot, hmod⟩ := subtract_spec hpos hb hd hrem hres
    have hlast : ¬ d >>> 1 ≠ 0 := not_not.mpr (half_eq_zero hd)
    refine ⟨res', rem', ?_, ?_, ?_⟩
    · rw [show 0 + fuel + 1 = fuel + 1 by omega, subtractDown, hround]
      simp only [if_neg hlast]
    · rw [hb, pow_zero, mul_one] at hlt
      rw [← hquot, Nat.div_eq_of_lt hlt, Nat.add_zero]
    · rw [hb, pow_zero, mul_one] at hlt
      rw [← hmod, Nat.mod_eq_of_lt hlt]
  | succ k ih =>
    intro fuel rem b res d hk hb hd hrem hres
    obtain ⟨fuel, rfl⟩ : ∃ f, fuel = f + 1 := ⟨fuel - 1, by omega⟩
    obtain ⟨rem', res', hround, hlt, hquot, hmod⟩ := subtract_spec hpos hb hd hrem hres
    have hhalf : (b >>> 1).toNat = base * 2 ^ k := toNat_half_mul hb
    have hdhalf : (d >>> 1).toNat = 2 ^ k := toNat_half_pow hd
    have hnext : d >>> 1 ≠ 0 := by
      rw [ne_eq, ← UInt64.toNat_inj, hdhalf]
      exact (Nat.two_pow_pos k).ne'
    have hdouble : b.toNat = 2 * (b >>> 1).toNat := by
      rw [hb, hhalf, pow_succ]
      ring
    rw [hdouble] at hlt
    rw [← hquot] at hres
    obtain ⟨res'', rem'', heq, hres', hrem'⟩ :=
      ih (Nat.lt_of_succ_lt_succ hk) hhalf hdhalf hlt hres
    refine ⟨res'', rem'', ?_, hres'.trans hquot, hrem'.trans hmod⟩
    rw [subtractDown, hround]
    simp only [if_pos hnext]
    exact heq

/-! ### The division -/

/-- What the high word gives is a multiple of the divisor, and the quotient of the rest makes it
up to the whole one. -/
theorem high_word {n base q : ℕ} (hpos : 0 < base) (hq : q = n / 2 ^ 32 / base) :
    base * (q * 2 ^ 32) ≤ n ∧ q * 2 ^ 32 + (n - base * (q * 2 ^ 32)) / base = n / base := by
  have hle : base * (q * 2 ^ 32) ≤ n := by
    calc base * (q * 2 ^ 32) = q * base * 2 ^ 32 := by ring
      _ ≤ n / 2 ^ 32 * 2 ^ 32 := Nat.mul_le_mul_right _ (hq ▸ Nat.div_mul_le_self _ _)
      _ ≤ n := Nat.div_mul_le_self _ _
  refine ⟨hle, ?_⟩
  obtain ⟨m, hm⟩ := Nat.exists_eq_add_of_le hle
  rw [hm, Nat.add_sub_cancel_left, Nat.mul_add_div hpos]

theorem toNat_highWord (n : UInt64) : (n >>> 32).toUInt32.toNat = n.toNat / 2 ^ 32 := by
  have hn := n.toNat_lt
  rw [UInt64.toNat_toUInt32, UInt64.toNat_shiftRight]
  show n.toNat >>> 32 % 2 ^ 32 = _
  rw [Nat.shiftRight_eq_div_pow]
  omega

theorem toNat_asHighWord (x : UInt32) : (x.toUInt64 <<< 32).toNat = x.toNat * 2 ^ 32 := by
  have hx := x.toNat_lt
  rw [UInt64.toNat_shiftLeft, UInt32.toNat_toUInt64]
  show x.toNat <<< 32 % 2 ^ 64 = _
  rw [Nat.shiftLeft_eq]
  omega

/-- The pair that the loops start from. -/
theorem start_spec (n : UInt64) {base : UInt32} (hpos : 0 < base.toNat) :
    ∃ res rem : UInt64,
      (if base ≤ (n >>> 32).toUInt32 then
        (((n >>> 32).toUInt32 / base).toUInt64 <<< 32,
          n - ((n >>> 32).toUInt32 / base * base).toUInt64 <<< 32) else (0, n)) = (res, rem) ∧
      res.toNat = n.toNat / 2 ^ 32 / base.toNat * 2 ^ 32 ∧
      rem.toNat = n.toNat - base.toNat * (n.toNat / 2 ^ 32 / base.toNat * 2 ^ 32) := by
  have hle := (high_word hpos (n := n.toNat) rfl).1
  split
  · refine ⟨_, _, rfl, ?_, ?_⟩
    · rw [toNat_asHighWord, UInt32.toNat_div, toNat_highWord]
    · have hprod : n.toNat / 2 ^ 32 / base.toNat * base.toNat < 2 ^ 32 :=
        (Nat.div_mul_le_self _ _).trans_lt (Nat.div_lt_of_lt_mul n.toNat_lt)
      have hmul : ((n >>> 32).toUInt32 / base * base).toNat
          = n.toNat / 2 ^ 32 / base.toNat * base.toNat := by
        rw [UInt32.toNat_mul, UInt32.toNat_div, toNat_highWord]
        exact Nat.mod_eq_of_lt hprod
      have hcomm : n.toNat / 2 ^ 32 / base.toNat * base.toNat * 2 ^ 32
          = base.toNat * (n.toNat / 2 ^ 32 / base.toNat * 2 ^ 32) := by ring
      rw [UInt64.toNat_sub_of_le, toNat_asHighWord, hmul, hcomm]
      rw [UInt64.le_iff_toNat_le, toNat_asHighWord, hmul, hcomm]
      exact hle
  · rename_i hlt
    rw [UInt32.le_iff_toNat_le, toNat_highWord, Nat.not_le] at hlt
    rw [Nat.div_eq_of_lt hlt, Nat.zero_mul, Nat.mul_zero]
    exact ⟨0, n, rfl, rfl, rfl⟩

theorem toNat_pos {base : UInt32} (hbase : base ≠ 0) : 0 < base.toNat := by
  rw [Nat.pos_iff_ne_zero]
  exact fun h => hbase (UInt32.toNat_inj.mp h)

/-- What the second loop starts from. -/
theorem between_spec (n : UInt64) {base : UInt32} (hbase : base ≠ 0) :
    ∃ (res rem b d : UInt64) (k : ℕ),
      (if base ≤ (n >>> 32).toUInt32 then
        (((n >>> 32).toUInt32 / base).toUInt64 <<< 32,
          n - ((n >>> 32).toUInt32 / base * base).toUInt64 <<< 32) else (0, n)) = (res, rem) ∧
      doubleUp rem 64 base.toUInt64 1 = some (b, d) ∧ k ≤ 63 ∧ b.toNat = base.toNat * 2 ^ k ∧
      d.toNat = 2 ^ k ∧ rem.toNat < 2 * b.toNat ∧
      res.toNat + rem.toNat / base.toNat = n.toNat / base.toNat ∧
      rem.toNat % base.toNat = n.toNat % base.toNat := by
  have hpos := toNat_pos hbase
  obtain ⟨hle, hquot⟩ := high_word hpos (n := n.toNat) rfl
  obtain ⟨res, rem, hstart, hres, hrem⟩ := start_spec n hpos
  have hbase0 : base.toUInt64.toNat = base.toNat * 2 ^ 0 := by simp
  have hstop : 64 ≤ 64 + 0 := le_rfl
  obtain ⟨k, b, d, hup, hk, hb, hd, hrem2⟩ :
      ∃ k b d, doubleUp rem 64 base.toUInt64 1 = some (b, d) ∧ k ≤ 63 ∧
        b.toNat = base.toNat * 2 ^ k ∧ d.toNat = 2 ^ k ∧ rem.toNat < 2 * b.toNat :=
    doubleUp_spec hpos hstop hbase0 rfl
  refine ⟨res, rem, b, d, k, hstart, hup, hk, hb, hd, hrem2, ?_, ?_⟩
  · rw [hres, hrem, hquot]
  · rw [hrem]
    exact Nat.sub_mul_mod hle

/-- **`__div64_32`** divides. -/
theorem div64_32_eq (n : UInt64) {base : UInt32} (hbase : base ≠ 0) :
    ∃ q r, div64_32 n base = some (q, r) ∧ q.toNat = n.toNat / base.toNat ∧
      r.toNat = n.toNat % base.toNat := by
  have hb := base.toNat_lt
  have hpos := toNat_pos hbase
  have hqle : n.toNat / base.toNat < 2 ^ 64 := (Nat.div_le_self _ _).trans_lt n.toNat_lt
  obtain ⟨res, rem, b, d, k, hstart, hup, hk, hbk, hdk, hrem2, hquot, hmod⟩ := between_spec n hbase
  have hfuel : k < 64 := Nat.lt_succ_of_le hk
  obtain ⟨q, r, hdown, hq, hr⟩ :=
    subtractDown_spec hpos hfuel hbk hdk hrem2 (by rw [hquot]; exact hqle)
  refine ⟨q, r.toUInt32, ?_, hq.trans hquot, ?_⟩
  · rw [div64_32, if_neg hbase]
    simp only [hstart, hup, hdown, Option.bind_some, Option.map_some]
  · have hlt32 := Nat.mod_lt n.toNat hpos
    rw [UInt64.toNat_toUInt32, hr, hmod, Nat.mod_eq_of_lt (by omega)]

/-- **`do_div`** divides. -/
theorem doDiv_eq (n : UInt64) {base : UInt32} (hbase : base ≠ 0) :
    ∃ q r, doDiv n base = some (q, r) ∧ q.toNat = n.toNat / base.toNat ∧
      r.toNat = n.toNat % base.toNat := by
  unfold doDiv
  split
  · rename_i hhigh
    have hlow : n.toUInt32.toNat = n.toNat := by
      have hzero := congrArg UInt64.toNat hhigh
      rw [UInt64.toNat_shiftRight] at hzero
      replace hzero : n.toNat >>> 32 = 0 := hzero
      rw [Nat.shiftRight_eq_div_pow] at hzero
      rw [UInt64.toNat_toUInt32]
      omega
    refine ⟨_, _, rfl, ?_, ?_⟩
    · rw [UInt32.toNat_toUInt64, UInt32.toNat_div, hlow]
    · rw [UInt32.toNat_mod, hlow]
  · exact div64_32_eq n hbase

/-! ### What is not lost -/

/-- The pairs `b`, `d` that the first loop doubles. -/
def doublings (rem : UInt64) : ℕ → UInt64 → UInt64 → List (UInt64 × UInt64)
  | 0, _, _ => []
  | fuel + 1, b, d =>
    if 0 < b.toInt64 ∧ b < rem then (b, d) :: doublings rem fuel (b + b) (d + d) else []

/-- What the passes of the second loop start with: `rem`, `b`, `res` and `d`. -/
def passes : ℕ → UInt64 → UInt64 → UInt64 → UInt64 → List (UInt64 × UInt64 × UInt64 × UInt64)
  | 0, _, _, _, _ => []
  | fuel + 1, rem, b, res, d =>
    let (rem', res') := if b ≤ rem then (rem - b, res + d) else (rem, res)
    (rem, b, res, d) ::
      if d >>> 1 ≠ 0 then passes fuel rem' (b >>> 1) res' (d >>> 1) else []

/-- No intermediate result of `__div64_32(n, base)` loses a bit that is still needed. -/
structure Lossless (n : UInt64) (base : UInt32) : Prop where
  /-- `high*base` fits in 32 bits, `high` being the quotient. -/
  product : ((n >>> 32).toUInt32 / base * base).toNat =
    ((n >>> 32).toUInt32 / base).toNat * base.toNat
  /-- Neither shift to the high word pushes a bit out, and the difference does not wrap. -/
  high : (((n >>> 32).toUInt32 / base).toUInt64 <<< 32).toNat =
    ((n >>> 32).toUInt32 / base).toNat * 2 ^ 32
  less : ((((n >>> 32).toUInt32 / base * base).toUInt64 <<< 32).toNat =
    ((n >>> 32).toUInt32 / base * base).toNat * 2 ^ 32) ∧
    ((n >>> 32).toUInt32 / base * base).toUInt64 <<< 32 ≤ n
  /-- Each doubling is exact… -/
  doubled : ∀ rem, ∀ x ∈ doublings rem 64 base.toUInt64 1,
    (x.1 + x.1).toNat = 2 * x.1.toNat ∧ (x.2 + x.2).toNat = 2 * x.2.toNat
  /-- …and so is each sum; and while there is another round nothing is shifted out. -/
  halved : ∀ res rem b d,
    (if base ≤ (n >>> 32).toUInt32 then
      (((n >>> 32).toUInt32 / base).toUInt64 <<< 32,
        n - ((n >>> 32).toUInt32 / base * base).toUInt64 <<< 32) else (0, n)) = (res, rem) →
    doubleUp rem 64 base.toUInt64 1 = some (b, d) → ∀ x ∈ passes 64 rem b res d,
      (x.2.1 ≤ x.1 → (x.2.2.1 + x.2.2.2).toNat = x.2.2.1.toNat + x.2.2.2.toNat) ∧
      (x.2.2.2 >>> 1 ≠ 0 → 2 * (x.2.1 >>> 1).toNat = x.2.1.toNat ∧
        2 * (x.2.2.2 >>> 1).toNat = x.2.2.2.toNat)

/-- `d` never exceeds `b`, and `b` is doubled below 2^63 only. -/
theorem doublings_exact : ∀ {fuel : ℕ} {b d : UInt64}, d.toNat ≤ b.toNat →
    ∀ x ∈ doublings rem fuel b d,
      (x.1 + x.1).toNat = 2 * x.1.toNat ∧ (x.2 + x.2).toNat = 2 * x.2.toNat := by
  intro fuel
  induction fuel with
  | zero => exact fun _ _ hx => absurd hx List.not_mem_nil
  | succ fuel ih =>
    intro b d hle x hx
    rw [doublings] at hx
    split at hx
    · rename_i hcond
      have hb := ((zero_lt_toInt64 b).mp hcond.1).2
      have hbb := toNat_double hb
      have hdd : (d + d).toNat = 2 * d.toNat := toNat_double (by omega)
      rcases List.mem_cons.mp hx with rfl | hx
      · exact ⟨hbb, hdd⟩
      · exact ih (by omega) x hx
    · exact absurd hx List.not_mem_nil

/-- The passes go down the powers of two. -/
theorem passes_exact (hpos : 0 < base) : ∀ {fuel k : ℕ} {rem b res d : UInt64},
    b.toNat = base * 2 ^ k → d.toNat = 2 ^ k → rem.toNat < 2 * b.toNat →
    res.toNat + rem.toNat / base < 2 ^ 64 → ∀ x ∈ passes fuel rem b res d,
      (x.2.1 ≤ x.1 → (x.2.2.1 + x.2.2.2).toNat = x.2.2.1.toNat + x.2.2.2.toNat) ∧
      (x.2.2.2 >>> 1 ≠ 0 → 2 * (x.2.1 >>> 1).toNat = x.2.1.toNat ∧
        2 * (x.2.2.2 >>> 1).toNat = x.2.2.2.toNat) := by
  intro fuel
  induction fuel with
  | zero => exact fun _ _ _ _ x hx => absurd hx List.not_mem_nil
  | succ fuel ih =>
    intro k rem b res d hb hd hrem hres x hx
    obtain ⟨rem', res', hround, hlt, hquot, -⟩ := subtract_spec hpos hb hd hrem hres
    rw [passes, hround] at hx
    replace hx : x ∈ (rem, b, res, d) ::
      (if d >>> 1 ≠ 0 then passes fuel rem' (b >>> 1) res' (d >>> 1) else []) := hx
    have hsum : b ≤ rem → (res + d).toNat = res.toNat + d.toNat := fun hle => by
      have hge : 2 ^ k ≤ rem.toNat / base := by
        rw [Nat.le_div_iff_mul_le hpos, mul_comm, ← hb]
        exact UInt64.le_iff_toNat_le.mp hle
      rw [UInt64.toNat_add, hd]
      exact Nat.mod_eq_of_lt (by omega)
    cases k with
    | zero =>
      rw [if_neg (not_not.mpr (half_eq_zero hd)), List.mem_singleton] at hx
      subst hx
      refine ⟨fun hle => hsum hle, fun hnext => absurd (half_eq_zero hd) hnext⟩
    | succ k =>
      have hhalf := toNat_half_mul hb
      have hdhalf := toNat_half_pow hd
      have hbb : 2 * (b >>> 1).toNat = b.toNat := by
        rw [hb, hhalf, pow_succ]
        ring
      have hdd : 2 * (d >>> 1).toNat = d.toNat := by
        rw [hd, hdhalf, pow_succ]
        ring
      rcases List.mem_cons.mp hx with rfl | hx
      · exact ⟨fun hle => hsum hle, fun _ => ⟨hbb, hdd⟩⟩
      · split at hx
        · exact ih hhalf hdhalf (by omega) (by rwa [hquot]) x hx
        · exact absurd hx List.not_mem_nil

/-- **Nothing is lost.** -/
theorem lossless (n : UInt64) {base : UInt32} (hbase : base ≠ 0) : Lossless n base := by
  have hpos := toNat_pos hbase
  have hprod : ((n >>> 32).toUInt32 / base * base).toNat =
      ((n >>> 32).toUInt32 / base).toNat * base.toNat := by
    rw [UInt32.toNat_mul, UInt32.toNat_div]
    exact Nat.mod_eq_of_lt ((Nat.div_mul_le_self _ _).trans_lt (UInt32.toNat_lt _))
  refine ⟨hprod, toNat_asHighWord _, ⟨toNat_asHighWord _, ?_⟩, fun rem => ?_, ?_⟩
  · rw [UInt64.le_iff_toNat_le, toNat_asHighWord, hprod, UInt32.toNat_div, toNat_highWord]
    calc n.toNat / 2 ^ 32 / base.toNat * base.toNat * 2 ^ 32
        ≤ n.toNat / 2 ^ 32 * 2 ^ 32 := Nat.mul_le_mul_right _ (Nat.div_mul_le_self _ _)
      _ ≤ n.toNat := Nat.div_mul_le_self _ _
  · apply doublings_exact
    show 1 ≤ base.toUInt64.toNat
    rw [UInt32.toNat_toUInt64]
    exact hpos
  · intro res rem b d hstart hup
    obtain ⟨res', rem', b', d', k, hstart', hup', -, hb, hd, hrem, hquot, -⟩ := between_spec n hbase
    obtain ⟨rfl, rfl⟩ := Prod.mk.injEq .. ▸ hstart'.symm.trans hstart
    obtain ⟨rfl, rfl⟩ := Prod.mk.injEq .. ▸ Option.some.inj (hup'.symm.trans hup)
    refine passes_exact hpos hb hd hrem ?_
    rw [hquot]
    exact (Nat.div_le_self _ _).trans_lt n.toNat_lt

/-- **`do_div` and `__div64_32` divide**, for every dividend and every divisor but 0, and lose
nothing on the way. -/
theorem division_exact (n : UInt64) (base : UInt32) (hbase : base ≠ 0) :
    (∃ q r, doDiv n base = some (q, r) ∧ q.toNat = n.toNat / base.toNat) ∧
    (∃ q r, div64_32 n base = some (q, r) ∧ q.toNat = n.toNat / base.toNat ∧
      r.toNat = n.toNat % base.toNat) ∧
    Lossless n base := by
  obtain ⟨q, r, heq, hq, -⟩ := doDiv_eq n hbase
  exact ⟨⟨q, r, heq, hq⟩, div64_32_eq n hbase, lossless n hbase⟩

/-- The largest dividend. -/
theorem division_exact_max : ∃ q r, doDiv 0xFFFFFFFFFFFFFFFF 7 = some (q, r) ∧
    q.toNat = 0xFFFFFFFFFFFFFFFF / 7 :=
  (division_exact 0xFFFFFFFFFFFFFFFF 7 (by decide)).1

end Start01
