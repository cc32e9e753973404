/-
Start01/Lib/Crc.lean

Reflected cyclic redundancy checks of any width `w`: the register is shifted to the right, and
the polynomial is added whenever a one falls out.

`shift` is one bit, `octet` adds eight bits of the message and shifts eight times, and `crc` goes
through a message.  Main results:

* `shifts_split` — `n` shifts of a register are those of its `n` low bits, beside the rest of it
  moved down, since shifting is linear; with it a table for the low bits does eight shifts at once
  (`octet_eq`);
* `crc_append_octets` — a message followed by its own check, the low octet first, has the check 0;
* `crc_eq_bits` — `feed` takes a message bit by bit, and comes to the same check;
* `Burst.crc_ne` — a change within `w` consecutive bits changes the check, if the polynomial has its
  top bit, since shifting is then injective (`shift_inj`) and `w` bits are only added to the register.
-/
import Mathlib.Tactic

namespace Crc

variable {w : ℕ} (poly : BitVec w)

/-- One bit. -/
def shift (c : BitVec w) : BitVec w := if c.getLsbD 0 then (c >>> 1) ^^^ poly else c >>> 1

/-- `n` bits. -/
def shifts : ℕ → BitVec w → BitVec w
  | 0, c => c
  | n + 1, c => shifts n (shift poly c)

/-- Eight bits of the message. -/
def octet (c : BitVec w) (b : BitVec 8) : BitVec w := shifts poly 8 (c ^^^ b.setWidth w)

/-- A message. -/
def crc (init : BitVec w) (bytes : List (BitVec 8)) : BitVec w := bytes.foldl (octet poly) init

/-- The octets of a register, the low one first. -/
def octets : ℕ → BitVec w → List (BitVec 8)
  | 0, _ => []
  | n + 1, c => c.setWidth 8 :: octets n (c >>> 8)

/-- One bit of the message. -/
def feed (c : BitVec w) (b : Bool) : BitVec w := shift poly (c ^^^ (BitVec.ofBool b).setWidth w)

/-- The bits of a message, the low one of each octet first. -/
def bits (bytes : List (BitVec 8)) : List Bool :=
  bytes.flatMap fun b => (List.range 8).map b.getLsbD

variable {poly} {c x y : BitVec w} {n : ℕ}

/-! ### Shifting is linear -/

theorem shift_xor (x y : BitVec w) : shift poly (x ^^^ y) = shift poly x ^^^ shift poly y := by
  simp only [shift, BitVec.getLsbD_xor, BitVec.ushiftRight_xor_distrib]
  cases x.getLsbD 0 <;> cases y.getLsbD 0
  · rfl
  · exact BitVec.xor_assoc _ _ _
  · show (x >>> 1 ^^^ y >>> 1) ^^^ poly = (x >>> 1 ^^^ poly) ^^^ y >>> 1
    ac_rfl
  · show x >>> 1 ^^^ y >>> 1 = (x >>> 1 ^^^ poly) ^^^ (y >>> 1 ^^^ poly)
    rw [BitVec.xor_assoc, BitVec.xor_comm (y >>> 1), ← BitVec.xor_assoc poly, BitVec.xor_self,
      BitVec.zero_xor]

theorem shifts_xor (n : ℕ) (x y : BitVec w) :
    shifts poly n (x ^^^ y) = shifts poly n x ^^^ shifts poly n y := by
  induction n generalizing x y with
  | zero => rfl
  | succ n ih => rw [shifts, shift_xor, ih]; rfl

/-- Where the low bits are zero, the register only moves down. -/
theorem shifts_of_clear : ∀ {n : ℕ} {c : BitVec w}, (∀ i < n, c.getLsbD i = false) →
    shifts poly n c = c >>> n := by
  intro n
  induction n with
  | zero =>
    intro c _
    simp [shifts]
  | succ n ih =>
    intro c h
    have hshift : shift poly c = c >>> 1 := by
      rw [shift, h 0 (Nat.succ_pos n)]
      rfl
    have hclear : ∀ i < n, (c >>> 1).getLsbD i = false := by
      intro i hi
      rw [BitVec.getLsbD_ushiftRight]
      exact h (1 + i) (by omega)
    rw [shifts, hshift, ih hclear, ← BitVec.shiftRight_add, Nat.add_comm]

/-- The `n` low bits. -/
def low (n : ℕ) (x : BitVec w) : BitVec w := (x.setWidth n).setWidth w

theorem getLsbD_low (n : ℕ) (x : BitVec w) (i : ℕ) :
    (low n x).getLsbD i = (decide (i < n) && x.getLsbD i) := by
  rw [low, BitVec.getLsbD_setWidth, BitVec.getLsbD_setWidth]
  by_cases h : i < w
  · simp [h]
  · simp [BitVec.getLsbD_of_ge x i (Nat.le_of_not_lt h), h]

/-- Without them, a register has only the bits that are moved down. -/
theorem shifts_xor_low (n : ℕ) (x : BitVec w) : shifts poly n (x ^^^ low n x) = x >>> n := by
  have hclear : ∀ i < n, (x ^^^ low n x).getLsbD i = false := by
    intro i hi
    simp [BitVec.getLsbD_xor, getLsbD_low, hi]
  rw [shifts_of_clear hclear]
  apply BitVec.eq_of_getLsbD_eq
  intro i _
  simp [BitVec.getLsbD_ushiftRight, BitVec.getLsbD_xor, getLsbD_low]

/-- **Splitting.** -/
theorem shifts_split (n : ℕ) (x : BitVec w) :
    shifts poly n x = shifts poly n (low n x) ^^^ x >>> n := by
  have hx : x = low n x ^^^ (x ^^^ low n x) := by
    rw [BitVec.xor_comm x, ← BitVec.xor_assoc, BitVec.xor_self, BitVec.zero_xor]
  calc shifts poly n x = shifts poly n (low n x ^^^ (x ^^^ low n x)) := by rw [← hx]
    _ = shifts poly n (low n x) ^^^ x >>> n := by rw [shifts_xor, shifts_xor_low]

/-! ### Octets -/

/-- Nothing of an octet is left above the eighth bit. -/
theorem setWidth_ushiftRight_eight (b : BitVec 8) : (b.setWidth w) >>> 8 = 0#w := by
  apply BitVec.eq_of_getLsbD_eq
  intro i _
  simp [BitVec.getLsbD_ushiftRight, BitVec.getLsbD_setWidth]

/-- **By table.**  The eight low bits choose the entry. -/
theorem octet_eq (c : BitVec w) (b : BitVec 8) :
    octet poly c b = shifts poly 8 ((c.setWidth 8 ^^^ b).setWidth w) ^^^ c >>> 8 := by
  have hlow : low 8 (c ^^^ b.setWidth w) = (c.setWidth 8 ^^^ b).setWidth w := by
    apply BitVec.eq_of_getLsbD_eq
    intro i hi
    rw [getLsbD_low, BitVec.getLsbD_xor, BitVec.getLsbD_setWidth, BitVec.getLsbD_setWidth,
      BitVec.getLsbD_xor, BitVec.getLsbD_setWidth]
    by_cases h : i < 8
    · simp [h, hi]
    · simp [h, BitVec.getLsbD_of_ge b i (Nat.le_of_not_lt h)]
  rw [octet, shifts_split, hlow, BitVec.ushiftRight_xor_distrib, setWidth_ushiftRight_eight,
    BitVec.xor_zero]

/-- The register's own low octet moves it down. -/
theorem octet_self (c : BitVec w) : octet poly c (c.setWidth 8) = c >>> 8 := shifts_xor_low 8 c

/-- Its octets empty it. -/
theorem crc_octets (n : ℕ) (c : BitVec w) : crc poly c (octets n c) = c >>> (8 * n) := by
  induction n generalizing c with
  | zero => simp [crc, octets]
  | succ n ih =>
    calc crc poly c (octets (n + 1) c)
        = crc poly (octet poly c (c.setWidth 8)) (octets n (c >>> 8)) := rfl
      _ = crc poly (c >>> 8) (octets n (c >>> 8)) := by rw [octet_self]
      _ = c >>> 8 >>> (8 * n) := ih (c >>> 8)
      _ = c >>> (8 * (n + 1)) := by rw [← BitVec.shiftRight_add, Nat.mul_succ, Nat.add_comm]

/-- A change of the last octet is added to the check, as it is shifted. -/
theorem octet_xor (c : BitVec w) (b e : BitVec 8) :
    octet poly c (b ^^^ e) = octet poly c b ^^^ shifts poly 8 (e.setWidth w) := by
  have he : (b ^^^ e).setWidth w = b.setWidth w ^^^ e.setWidth w := BitVec.setWidth_xor
  rw [octet, octet, ← shifts_xor, he, BitVec.xor_assoc]

theorem crc_append (init : BitVec w) (bytes bytes' : List (BitVec 8)) :
    crc poly init (bytes ++ bytes') = crc poly (crc poly init bytes) bytes' := List.foldl_append

/-- **The check of a message with its check** is 0. -/
theorem crc_append_octets (h : w ≤ 8 * n) (init : BitVec w) (bytes : List (BitVec 8)) :
    crc poly init (bytes ++ octets n (crc poly init bytes)) = 0#w := by
  rw [crc_append, crc_octets]
  exact BitVec.ushiftRight_eq_zero h

/-! ### Bit by bit -/

/-- The lowest bit apart. -/
theorem low_succ (h : 0 < w) (n : ℕ) (x : BitVec w) :
    low (n + 1) x = (BitVec.ofBool (x.getLsbD 0)).setWidth w ^^^ low n (x >>> 1) <<< 1 := by
  apply BitVec.eq_of_getLsbD_eq
  intro i hi
  rw [getLsbD_low, BitVec.getLsbD_xor, BitVec.getLsbD_setWidth, BitVec.getLsbD_shiftLeft,
    getLsbD_low, BitVec.getLsbD_ushiftRight]
  cases i with
  | zero => simp [h]
  | succ i => simp [hi, Nat.add_comm 1 i]

/-- Moved up by one bit and shifted, low bits come back. -/
theorem shift_low_shiftLeft (n : ℕ) (x : BitVec w) :
    shift poly (low n (x >>> 1) <<< 1) = low n (x >>> 1) := by
  have hzero : (low n (x >>> 1) <<< 1).getLsbD 0 = false := by simp
  rw [shift, hzero]
  apply BitVec.eq_of_getLsbD_eq
  intro i hi
  simp only [Bool.false_eq_true, if_false, BitVec.getLsbD_ushiftRight, BitVec.getLsbD_shiftLeft,
    getLsbD_low]
  by_cases htop : 1 + i < w
  · simp [htop]
  · simp [htop, BitVec.getLsbD_of_ge x (1 + i) (Nat.le_of_not_lt htop)]

/-- Shifting `n` times takes in the `n` low bits one by one. -/
theorem shifts_xor_low_eq (h : 0 < w) (n : ℕ) : ∀ c x : BitVec w,
    shifts poly n (c ^^^ low n x) = ((List.range n).map x.getLsbD).foldl (feed poly) c := by
  induction n with
  | zero =>
    intro c x
    have hnone : low 0 x = 0#w := by
      apply BitVec.eq_of_getLsbD_eq
      intro i _
      rw [getLsbD_low, BitVec.getLsbD_zero]
      rfl
    rw [hnone, BitVec.xor_zero]
    rfl
  | succ n ih =>
    intro c x
    have hstep : shift poly (c ^^^ low (n + 1) x)
        = feed poly c (x.getLsbD 0) ^^^ low n (x >>> 1) := by
      rw [low_succ h, ← BitVec.xor_assoc, shift_xor, shift_low_shiftLeft]
      rfl
    have hbits : (List.range (n + 1)).map x.getLsbD
        = x.getLsbD 0 :: (List.range n).map (x >>> 1).getLsbD := by
      rw [List.range_succ_eq_map, List.map_cons, List.map_map]
      congr 1
      apply List.map_congr_left
      intro i _
      rw [BitVec.getLsbD_ushiftRight, Nat.add_comm]
      rfl
    rw [shifts, hstep, ih, hbits, List.foldl_cons]

/-- An octet is its bits. -/
theorem octet_eq_bits (h : 8 ≤ w) (c : BitVec w) (b : BitVec 8) :
    octet poly c b = ((List.range 8).map b.getLsbD).foldl (feed poly) c := by
  have hlow : b.setWidth w = low 8 (b.setWidth w) := by
    rw [low, BitVec.setWidth_setWidth_of_le b h, BitVec.setWidth_eq]
  have hbits : (List.range 8).map b.getLsbD = (List.range 8).map (b.setWidth w).getLsbD := by
    apply List.map_congr_left
    intro i hi
    rw [BitVec.getLsbD_setWidth, decide_eq_true (by have := List.mem_range.mp hi; omega),
      Bool.true_and]
  rw [octet, hbits, ← shifts_xor_low_eq (by omega), ← hlow]

/-- **Bit by bit**, a message gives the same check. -/
theorem crc_eq_bits (h : 8 ≤ w) (bytes : List (BitVec 8)) :
    crc poly c bytes = (bits bytes).foldl (feed poly) c := by
  induction bytes generalizing c with
  | nil => rfl
  | cons b bytes ih =>
    rw [crc, List.foldl_cons, octet_eq_bits h, bits, List.flatMap_cons, List.foldl_append]
    exact ih

/-! ### Bursts -/

theorem shift_inj (hpoly : poly.msb = true) (h : shift poly x = shift poly y) : x = y := by
  -- a shift that comes out as 0 has dropped nothing
  have hzero : shift poly (x ^^^ y) = 0#w := by rw [shift_xor, h, BitVec.xor_self]
  suffices hxy : x ^^^ y = 0#w by
    rwa [BitVec.xor_eq_zero_iff] at hxy
  have hw : 0 < w := by
    by_contra hw
    obtain rfl : w = 0 := by omega
    simp [BitVec.msb_eq_getLsbD_last] at hpoly
  obtain ⟨z, hz⟩ : ∃ z, z = x ^^^ y := ⟨_, rfl⟩
  rw [← hz] at hzero ⊢
  have hbit : z.getLsbD 0 = false := by
    by_contra hone
    rw [Bool.not_eq_false] at hone
    rw [shift, if_pos hone, BitVec.xor_eq_zero_iff] at hzero
    have hmsb := hpoly
    rw [← hzero, BitVec.msb_eq_getLsbD_last, BitVec.getLsbD_ushiftRight,
      BitVec.getLsbD_of_ge z _ (by omega)] at hmsb
    exact absurd hmsb (by simp)
  rw [shift, hbit] at hzero
  apply BitVec.eq_of_getLsbD_eq
  intro i hi
  cases i with
  | zero => rw [hbit, BitVec.getLsbD_zero]
  | succ i =>
    have hmoved : (z >>> 1).getLsbD i = false := by
      have := congrArg (fun t : BitVec w => t.getLsbD i) hzero
      simpa using this
    rw [BitVec.getLsbD_ushiftRight, Nat.add_comm] at hmoved
    rw [hmoved, BitVec.getLsbD_zero]

theorem shifts_inj (hpoly : poly.msb = true) : ∀ {n : ℕ} {x y : BitVec w},
    shifts poly n x = shifts poly n y → x = y := by
  intro n
  induction n with
  | zero => exact fun h => h
  | succ n ih => exact fun h => shift_inj hpoly (ih h)

theorem feed_inj (hpoly : poly.msb = true) {b : Bool} (h : feed poly x b = feed poly y b) :
    x = y := (BitVec.xor_left_inj _).mp (shift_inj hpoly h)

/-- What follows the same tells registers apart as before. -/
theorem foldl_feed_inj (hpoly : poly.msb = true) {s : List Bool} :
    ∀ {x y : BitVec w}, s.foldl (feed poly) x = s.foldl (feed poly) y → x = y := by
  induction s with
  | nil => exact fun h => h
  | cons b s ih => exact fun h => feed_inj hpoly (ih h)

/-- At most `w` bits are a register. -/
theorem exists_bits {u : List Bool} (hu : u.length ≤ w) :
    ∃ x : BitVec w, u = (List.range u.length).map x.getLsbD := by
  refine ⟨(BitVec.ofBoolListLE u).setWidth w, ?_⟩
  apply List.ext_getElem
  · simp
  · intro i hi _
    have hi' : i < w := by omega
    rw [List.getElem_map, List.getElem_range, BitVec.getLsbD_setWidth, decide_eq_true hi',
      Bool.true_and, BitVec.getLsbD_ofBoolListLE, List.getD_eq_getElem?_getD,
      List.getElem?_eq_getElem hi]
    rfl

/-- **Burst.**  Two messages that differ in at most `w` consecutive bits have different checks. -/
theorem crc_burst (hw : 8 ≤ w) (hpoly : poly.msb = true) {init : BitVec w}
    {a b : List (BitVec 8)} {p u v s : List Bool} (ha : bits a = p ++ u ++ s)
    (hb : bits b = p ++ v ++ s) (hlen : u.length = v.length) (hu : u.length ≤ w)
    (h : crc poly init a = crc poly init b) : u = v := by
  rw [crc_eq_bits hw, crc_eq_bits hw, ha, hb, List.foldl_append, List.foldl_append,
    List.foldl_append, List.foldl_append] at h
  have hmiddle := foldl_feed_inj hpoly h
  obtain ⟨x, hx⟩ := exists_bits hu
  obtain ⟨y, hy⟩ := exists_bits (hlen ▸ hu)
  -- as many bits as the register has are only added to it
  rw [hx, hy, ← hlen, ← shifts_xor_low_eq (by omega), ← shifts_xor_low_eq (by omega)] at hmiddle
  have hlow := (BitVec.xor_right_inj _).mp (shifts_inj hpoly hmiddle)
  rw [hx, hy, ← hlen]
  apply List.map_congr_left
  intro i hi
  have hi := List.mem_range.mp hi
  have hbit := congrArg (fun t : BitVec w => t.getLsbD i) hlow
  simpa only [getLsbD_low, decide_eq_true hi, Bool.true_and] using hbit

/-- Nothing is changed from `a` to `b` but, at most, the `n` bits from number `k` on. -/
structure Burst (k n : ℕ) (a b : List (BitVec 8)) : Prop where
  length : a.length = b.length
  same : ∀ i, i < k ∨ k + n ≤ i → (bits a)[i]? = (bits b)[i]?

theorem length_bits (a : List (BitVec 8)) : (bits a).length = 8 * a.length := by
  simp [bits, List.length_flatMap, Nat.mul_comm]

theorem getElem?_bits (bytes : List (BitVec 8)) (i : ℕ) {j : ℕ} (hj : j < 8) :
    (bits bytes)[8 * i + j]? = bytes[i]?.map (·.getLsbD j) := by
  induction bytes generalizing i with
  | nil => simp [bits]
  | cons b bytes ih =>
    rw [bits, List.flatMap_cons]
    cases i with
    | zero =>
      rw [List.getElem?_append_left (by simpa using hj)]
      simp [hj]
    | succ i =>
      have hback : 8 * (i + 1) + j - ((List.range 8).map b.getLsbD).length = 8 * i + j := by
        rw [List.length_map, List.length_range]
        omega
      rw [List.getElem?_append_right (by simp; omega), hback]
      exact ih i

theorem bits_inj : ∀ {a b : List (BitVec 8)}, bits a = bits b → a = b
  | [], [], _ => rfl
  | [], _ :: _, h => by simpa [length_bits] using congrArg List.length h
  | _ :: _, [], h => by simpa [length_bits] using congrArg List.length h
  | x :: a, y :: b, h => by
    rw [bits, bits, List.flatMap_cons, List.flatMap_cons] at h
    obtain ⟨hhead, htail⟩ := List.append_inj h (by simp)
    have hxy : x = y := by
      apply BitVec.eq_of_getLsbD_eq
      intro i hi
      exact List.map_inj_left.mp hhead i (List.mem_range.mpr hi)
    rw [hxy, bits_inj htail]

/-- Within any `m` of these bits. -/
theorem Burst.mono {k m n : ℕ} {a b : List (BitVec 8)} (h : Burst k m a b) (hm : m ≤ n) :
    Burst k n a b :=
  ⟨h.length, fun i hi => h.same i (by omega)⟩

theorem burst_iff {k n : ℕ} {a b : List (BitVec 8)} : Burst k n a b ↔ a.length = b.length ∧
    ∀ i j, j < 8 → (8 * i + j < k ∨ k + n ≤ 8 * i + j) →
      a[i]?.map (·.getLsbD j) = b[i]?.map (·.getLsbD j) := by
  constructor
  · intro h
    refine ⟨h.length, fun i j hj hij => ?_⟩
    rw [← getElem?_bits a i hj, ← getElem?_bits b i hj]
    exact h.same _ hij
  · rintro ⟨hlength, h⟩
    refine ⟨hlength, fun i hi => ?_⟩
    have hbit := Nat.div_add_mod i 8
    rw [← hbit, getElem?_bits a _ (Nat.mod_lt i (by omega)),
      getElem?_bits b _ (Nat.mod_lt i (by omega))]
    exact h _ _ (Nat.mod_lt i (by omega)) (hbit.symm ▸ hi)

/-- A change of at most `w` consecutive bits changes the check. -/
theorem Burst.crc_ne {k : ℕ} {a b : List (BitVec 8)} (h : Burst k w a b) (hw : 8 ≤ w)
    (hpoly : poly.msb = true) (init : BitVec w) (hne : a ≠ b) :
    crc poly init a ≠ crc poly init b := by
  intro hcrc
  have hlength : (bits a).length = (bits b).length := by
    rw [length_bits, length_bits, h.length]
  have hfirst : (bits a).take k = (bits b).take k := by
    apply List.ext_getElem?
    intro i
    rw [List.getElem?_take, List.getElem?_take]
    split
    · exact h.same i (.inl ‹_›)
    · rfl
  have hlast : ((bits a).drop k).drop w = ((bits b).drop k).drop w := by
    apply List.ext_getElem?
    intro i
    rw [List.drop_drop, List.drop_drop, List.getElem?_drop, List.getElem?_drop]
    exact h.same _ (.inr (by omega))
  have hparts : ∀ l : List Bool, l = l.take k ++ (l.drop k).take w ++ (l.drop k).drop w := by
    intro l
    rw [List.append_assoc, List.take_append_drop, List.take_append_drop]
  have hb := hparts (bits b)
  rw [← hfirst, ← hlast] at hb
  have hmiddle := crc_burst hw hpoly (hparts (bits a)) hb (by simp [hlength]) (by simp) hcrc
  refine hne (bits_inj ?_)
  rw [hparts (bits a), hmiddle]
  exact hb.symm

end Crc
