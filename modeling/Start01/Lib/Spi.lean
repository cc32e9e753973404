/-
Start01/Lib/Spi.lean

A slave on a serial bus, seen from its pins: chip select (active low), clock and data.  While it is
selected it takes in a bit at each rising edge of the clock, the top bit of a byte first, and
keeps the bytes until chip select rises; the bytes between two edges of chip select are one
transaction.

`Taking s ts bs k v` says that `s` is selected, behind the transactions `ts`, with the bytes `bs`
of the one that is open and `k` bits of the next byte, which are worth `v`.  Main results:

* `Taking.clock`, `Taking.clock_last` — what a bit adds to it;
* `Rest.deselect` — with a byte complete, the rise of chip select ends the transaction.
-/
import Mathlib.Tactic
import Mathlib.Data.Nat.Bitwise

namespace Spi

/-- The master moves one of the lines. -/
inductive Pin
  | csLow | csHigh | sckLow | sckHigh | siLow | siHigh
deriving DecidableEq

/-- The levels that a slave sees, the byte it takes in with the number of its bits, the bytes since
it was selected, and the transactions that have ended. -/
structure Slave where
  cs : Bool
  sck : Bool
  si : Bool
  reg : UInt8
  count : ℕ
  bytes : List UInt8
  done : List (List UInt8)
deriving DecidableEq

/-- A bit is moved in from below. -/
def shiftIn (x : UInt8) (b : Bool) : UInt8 := x <<< 1 ||| if b then 1 else 0

/-- A bit is taken in; the eighth completes a byte. -/
def Slave.sample (s : Slave) (b : Bool) : Slave :=
  let reg := shiftIn s.reg b
  if s.count = 7 then { s with reg := reg, count := 0, bytes := s.bytes ++ [reg] }
  else { s with reg := reg, count := s.count + 1 }

/-- What a slave makes of a move of a line. -/
def Slave.pin (s : Slave) : Pin → Slave
  | .csLow => if s.cs then { s with cs := false, count := 0, bytes := [] } else s
  | .csHigh =>
      if s.cs then s
      else { s with cs := true, count := 0, bytes := [], done := s.done ++ [s.bytes] }
  | .sckLow => { s with sck := false }
  | .sckHigh =>
      if s.sck then s else if s.cs then { s with sck := true }
      else ({ s with sck := true } : Slave).sample s.si
  | .siLow => { s with si := false }
  | .siHigh => { s with si := true }

/-- The master puts a bit on the line, and the clock goes down and up. -/
def Slave.clock (s : Slave) (b : Bool) : Slave :=
  ((s.pin .sckLow).pin (if b then .siHigh else .siLow)).pin .sckHigh

variable {s : Slave} {ts : List (List UInt8)} {bs : List UInt8} {k v : ℕ} {b : Bool}

/-! ### Bits and bytes -/

theorem toNat_shiftIn (x : UInt8) (b : Bool) :
    (shiftIn x b).toNat = (2 * x.toNat + b.toNat) % 256 := by
  have hx := x.toNat_lt
  have hor : (2 * x.toNat % 256) ||| b.toNat = 2 * x.toNat % 256 + b.toNat := by
    have h := Nat.two_pow_add_eq_or_of_lt (i := 1) (b := b.toNat) b.toNat_lt (x.toNat % 128)
    rw [show 2 * x.toNat % 256 = 2 ^ 1 * (x.toNat % 128) by omega, ← h]
  have hshift : (x <<< 1).toNat = 2 * x.toNat % 256 := by
    rw [UInt8.toNat_shiftLeft, show (1 : UInt8).toNat % 8 = 1 from rfl, Nat.shiftLeft_eq]
    omega
  have hbit : (if b then (1 : UInt8) else 0).toNat = b.toNat := by cases b <;> rfl
  rw [shiftIn, UInt8.toNat_or, hshift, hbit, hor]
  have hb := b.toNat_lt
  omega

theorem toNat_shiftLeft_one (x : UInt8) : (x <<< 1).toNat = 2 * x.toNat % 256 := by
  rw [UInt8.toNat_shiftLeft, show (1 : UInt8).toNat % 8 = 1 from rfl, Nat.shiftLeft_eq]
  omega

/-- The test of the top bit. -/
theorem top_eq (x : UInt8) : decide (x &&& 0x80 = 0x80) = decide (128 ≤ x.toNat) := by
  have hx := x.toNat_lt
  have hand : (x &&& 0x80).toNat = (x.toNat.testBit 7).toNat * 2 ^ 7 := by
    rw [UInt8.toNat_and]
    exact Nat.and_two_pow x.toNat 7
  rw [decide_eq_decide, ← UInt8.toNat_inj, hand, Nat.testBit_eq_decide_div_mod_eq]
  show _ = 128 ↔ _
  by_cases htop : 128 ≤ x.toNat
  · rw [decide_eq_true (by omega)]
    exact iff_of_true rfl htop
  · rw [decide_eq_false (by omega)]
    exact iff_of_false (by decide) htop

/-! ### Transactions -/

/-- Selected, behind the transactions `ts`, with the bytes `bs` and `k` bits that are worth `v`. -/
structure Taking (s : Slave) (ts : List (List UInt8)) (bs : List UInt8) (k v : ℕ) : Prop where
  cs : s.cs = false
  done : s.done = ts
  bytes : s.bytes = bs
  count : s.count = k
  reg : s.reg.toNat % 2 ^ k = v

/-- Behind the transactions `ts`, with no byte of another one: not selected, or just selected. -/
structure Rest (s : Slave) (ts : List (List UInt8)) : Prop where
  done : s.done = ts
  bytes : s.bytes = []
  count : s.count = 0

/-- Between two bytes what the register holds does not matter. -/
theorem Taking.of_eq (hcs : s.cs = false) (hdone : s.done = ts) (hbytes : s.bytes = bs)
    (hcount : s.count = 0) : Taking s ts bs 0 0 :=
  ⟨hcs, hdone, hbytes, hcount, by rw [pow_zero, Nat.mod_one]⟩

theorem Rest.select (h : Rest s ts) : Taking (s.pin .csLow) ts [] 0 0 := by
  show Taking (if s.cs then _ else s) ts [] 0 0
  split
  · exact .of_eq rfl h.done rfl rfl
  · rename_i hcs
    exact .of_eq (Bool.eq_false_iff.mpr hcs) h.done h.bytes h.count

/-- A slave that is selected stays so. -/
theorem Taking.select (h : Taking s ts bs k v) : Taking (s.pin .csLow) ts bs k v := by
  show Taking (if s.cs then _ else s) ts bs k v
  rwa [if_neg (by rw [h.cs]; exact Bool.false_ne_true)]

theorem Taking.sckLow (h : Taking s ts bs k v) : Taking (s.pin .sckLow) ts bs k v :=
  ⟨h.cs, h.done, h.bytes, h.count, h.reg⟩

/-- **The rise of chip select** ends the transaction. -/
theorem Taking.deselect (h : Taking s ts bs k v) : Rest (s.pin .csHigh) (ts ++ [bs]) := by
  have hpin : s.pin .csHigh =
      { s with cs := true, count := 0, bytes := [], done := s.done ++ [s.bytes] } :=
    if_neg (by rw [h.cs]; exact Bool.false_ne_true)
  rw [hpin]
  exact ⟨by rw [← h.done, ← h.bytes], rfl, rfl⟩

/-- While it is selected, a slave takes in one bit for a clock. -/
theorem clock_eq (hcs : s.cs = false) (b : Bool) :
    s.clock b = ({ s with sck := true, si := b } : Slave).sample b := by
  cases b <;> simp [Slave.clock, Slave.pin, hcs]

/-- The value of the bits taken in. -/
theorem shiftIn_mod (x : UInt8) (b : Bool) (hk : k < 8) :
    (shiftIn x b).toNat % 2 ^ (k + 1) = 2 * (x.toNat % 2 ^ k) + b.toNat := by
  have hb := b.toNat_lt
  have hdvd : 2 ^ (k + 1) ∣ 256 := pow_dvd_pow 2 (show k + 1 ≤ 8 by omega)
  have hlow : x.toNat % 2 ^ k < 2 ^ k := Nat.mod_lt _ (by positivity)
  have hsplit : 2 * x.toNat + b.toNat =
      2 * 2 ^ k * (x.toNat / 2 ^ k) + (2 * (x.toNat % 2 ^ k) + b.toNat) := by
    have h := Nat.div_add_mod x.toNat (2 ^ k)
    rw [mul_assoc]
    omega
  rw [toNat_shiftIn, Nat.mod_mod_of_dvd _ hdvd, pow_succ', hsplit, Nat.mul_add_mod,
    Nat.mod_eq_of_lt (by omega)]

/-- **A bit** of a byte that is not complete with it. -/
theorem Taking.clock (h : Taking s ts bs k v) (hk : k < 7) (b : Bool) :
    Taking (s.clock b) ts bs (k + 1) (2 * v + b.toNat) := by
  have hreg := shiftIn_mod s.reg b (show k < 8 by omega)
  rw [h.reg] at hreg
  rw [clock_eq h.cs, Slave.sample]
  simp only [h.count, if_neg hk.ne]
  exact ⟨h.cs, h.done, h.bytes, rfl, hreg⟩

/-- **The last bit** of a byte. -/
theorem Taking.clock_last (h : Taking s ts bs 7 v) (b : Bool) :
    Taking (s.clock b) ts (bs ++ [UInt8.ofNat (2 * v + b.toNat)]) 0 0 := by
  have hreg := shiftIn_mod s.reg b (show 7 < 8 by omega)
  rw [h.reg] at hreg
  have hlt := (shiftIn s.reg b).toNat_lt
  rw [Nat.mod_eq_of_lt hlt] at hreg
  have hbyte : shiftIn s.reg b = UInt8.ofNat (2 * v + b.toNat) := by
    rw [← hreg, UInt8.ofNat_toNat]
  rw [clock_eq h.cs, Slave.sample]
  simp only [h.count, if_true]
  exact .of_eq h.cs h.done (by rw [h.bytes, hbyte]) rfl

end Spi
