/-
Start01/AbccDamage.lean

What the check of an Anybus telegram finds.  `CRC_Crc16` alone tells apart any two telegrams that
differ within 16 consecutive bits.  The check goes out with its high byte first, though, so that it
does not go on where the register ends: of damage that reaches from the bytes covered into the
check, 8 bits are found, and there are 9 that no telegram notices.
-/
import Start01.Apdr

namespace Start01

open Crc

variable {y y' : ℕ → UInt8} {n : UInt16}

/-- The first `n` bytes of a telegram, as they are on the line. -/
def onLine (y : ℕ → UInt8) (n : ℕ) : List (BitVec 8) := (chkBytes y 0 n).map UInt8.toBitVec

theorem length_onLine (y : ℕ → UInt8) (n : ℕ) : (onLine y n).length = n := by
  simp [onLine, chkBytes]

theorem getElem?_onLine (y : ℕ → UInt8) {n i : ℕ} (hi : i < n) :
    (onLine y n)[i]? = some (y i).toBitVec := by
  simp [onLine, chkBytes, hi]

theorem onLine_succ (y : ℕ → UInt8) (n : ℕ) : onLine y (n + 1) = onLine y n ++ [(y n).toBitVec] := by
  simp [onLine, chkBytes, List.range_succ]

theorem onLine_congr {n : ℕ} (h : ∀ i < n, y i = y' i) : onLine y n = onLine y' n := by
  apply List.ext_getElem?
  intro i
  by_cases hi : i < n
  · rw [getElem?_onLine y hi, getElem?_onLine y' hi, h i hi]
  · rw [List.getElem?_eq_none (by rw [length_onLine]; omega),
      List.getElem?_eq_none (by rw [length_onLine]; omega)]

theorem onLine_inj {n : ℕ} (h : onLine y n = onLine y' n) {i : ℕ} (hi : i < n) : y i = y' i := by
  have hget := congrArg (·[i]?) h
  simp only [getElem?_onLine _ hi, Option.some_inj] at hget
  exact UInt8.toBitVec_inj.mp hget

/-- A burst, byte by byte. -/
theorem burst_onLine {k l n : ℕ} : Burst k l (onLine y n) (onLine y' n) ↔
    ∀ i j, i < n → j < 8 → (8 * i + j < k ∨ k + l ≤ 8 * i + j) →
      (y i).toBitVec.getLsbD j = (y' i).toBitVec.getLsbD j := by
  rw [burst_iff, length_onLine, length_onLine]
  constructor
  · intro h i j hi hj hij
    have hbit := h.2 i j hj hij
    rw [getElem?_onLine y hi, getElem?_onLine y' hi] at hbit
    exact Option.some.inj hbit
  · intro h
    refine ⟨rfl, fun i j hj hij => ?_⟩
    by_cases hi : i < n
    · rw [getElem?_onLine y hi, getElem?_onLine y' hi]
      exact congrArg some (h i j hi hj hij)
    · rw [List.getElem?_eq_none (by rw [length_onLine]; omega),
        List.getElem?_eq_none (by rw [length_onLine]; omega)]

/-! ### The check -/

theorem highFirst (a b : UInt8) :
    (a.toUInt16 <<< 8 ||| b.toUInt16).toBitVec = a.toBitVec ++ b.toBitVec := by
  rw [UInt16.toBitVec_or, UInt16.toBitVec_shiftLeft, UInt8.toBitVec_toUInt16,
    UInt8.toBitVec_toUInt16]
  show a.toBitVec.setWidth 16 <<< 8 ||| b.toBitVec.setWidth 16 = a.toBitVec ++ b.toBitVec
  apply BitVec.eq_of_getLsbD_eq
  intro i hi
  rw [BitVec.getLsbD_append, BitVec.getLsbD_or, BitVec.getLsbD_shiftLeft, BitVec.getLsbD_setWidth,
    BitVec.getLsbD_setWidth]
  by_cases hlow : i < 8
  · simp [hlow, hi]
  · have hin : i - 8 < 16 := by omega
    have hout : b.toBitVec.getLsbD i = false := BitVec.getLsbD_of_ge _ i (by omega)
    simp [hlow, hi, hin, hout]

/-- A telegram is taken when the check of the bytes covered is behind them, the high byte first. -/
theorem telegramOk_iff (y : ℕ → UInt8) (hn : 2 ≤ n.toNat) : telegramOk y n = true ↔
    crc 0xA001#16 0xFFFF#16 (onLine y (n.toNat - 2))
      = (y (n.toNat - 2)).toBitVec ++ (y (n.toNat - 1)).toBitVec := by
  have hlen : (n - 2).toNat = n.toNat - 2 := UInt16.toNat_sub_of_le _ _ hn
  rw [telegramOk, beq_iff_eq, ← UInt16.toBitVec_inj, highFirst, toBitVec_crcCrc16, hlen]
  rfl

/-- What is added to the check when `e` is added to the last byte covered. -/
def checkOf (e : BitVec 8) : BitVec 16 := shifts 0xA001#16 8 (e.setWidth 16)

/-- Damage of the last byte covered that leaves the low byte of the check as it is, and takes no
more than 8 bits with what it adds to the high byte, is none. -/
theorem checkOf_short : ∀ d < 8, ∀ e : BitVec 8, (checkOf e).setWidth 8 = 0#8 →
    e <<< (8 - d) = 0#8 → checkOf e >>> (8 + d) = 0#16 → e = 0#8 := by
  decide +kernel

theorem append_inj {a a' b b' : BitVec 8} (h : a ++ b = a' ++ b') : a = a' ∧ b = b' := by
  have hbit : ∀ i, (a ++ b).getLsbD i = (a' ++ b').getLsbD i := fun i => by rw [h]
  simp only [BitVec.getLsbD_append] at hbit
  constructor
  · apply BitVec.eq_of_getLsbD_eq
    intro i hi
    simpa using hbit (8 + i)
  · apply BitVec.eq_of_getLsbD_eq
    intro i hi
    simpa [hi] using hbit i

/-- Two telegrams with their checks that differ in the last byte covered, and in the check. -/
theorem check_xor {m : ℕ} (hok : crc 0xA001#16 0xFFFF#16 (onLine y (m + 1))
      = (y (m + 1)).toBitVec ++ (y (m + 2)).toBitVec) (hsame : ∀ i < m, y i = y' i) :
    crc 0xA001#16 0xFFFF#16 (onLine y' (m + 1)) = ((y (m + 1)).toBitVec ++ (y (m + 2)).toBitVec)
      ^^^ checkOf ((y m).toBitVec ^^^ (y' m).toBitVec) := by
  have hlast : (y' m).toBitVec = (y m).toBitVec ^^^ ((y m).toBitVec ^^^ (y' m).toBitVec) := by
    rw [← BitVec.xor_assoc, BitVec.xor_self, BitVec.zero_xor]
  rw [onLine_succ, crc_append] at hok
  rw [onLine_succ, crc_append, ← onLine_congr hsame, hlast]
  simp only [crc, List.foldl_cons, List.foldl_nil] at hok ⊢
  rw [octet_xor, hok, ← hlast]
  rfl

/-! ### Damage -/

variable {k l m : ℕ}

theorem onLine_eq {n : ℕ} (h : ∀ i < n, ∀ j < 8,
    (y i).toBitVec.getLsbD j = (y' i).toBitVec.getLsbD j) : onLine y n = onLine y' n := by
  apply onLine_congr
  intro i hi
  apply UInt8.toBitVec_inj.mp
  apply BitVec.eq_of_getLsbD_eq
  exact h i hi

/-- Damage of the check alone. -/
theorem damage_behind (hok : crc 0xA001#16 0xFFFF#16 (onLine y m)
      = (y m).toBitVec ++ (y (m + 1)).toBitVec)
    (hok' : crc 0xA001#16 0xFFFF#16 (onLine y' m) = (y' m).toBitVec ++ (y' (m + 1)).toBitVec)
    (hsame : onLine y m = onLine y' m) : onLine y (m + 2) = onLine y' (m + 2) := by
  rw [← hsame, hok] at hok'
  obtain ⟨hhigh, hlow⟩ := append_inj hok'
  rw [onLine_succ, onLine_succ, onLine_succ, onLine_succ, hsame, hhigh, hlow]

/-- Damage of the bytes covered alone. -/
theorem damage_before (hok : crc 0xA001#16 0xFFFF#16 (onLine y m)
      = (y m).toBitVec ++ (y (m + 1)).toBitVec)
    (hok' : crc 0xA001#16 0xFFFF#16 (onLine y' m) = (y' m).toBitVec ++ (y' (m + 1)).toBitVec)
    (hb : Burst k l (onLine y (m + 2)) (onLine y' (m + 2))) (hl : l ≤ 16) (hk : k + l ≤ 8 * m) :
    onLine y (m + 2) = onLine y' (m + 2) := by
  have hbits := burst_onLine.mp hb
  have hcovered : Burst k l (onLine y m) (onLine y' m) :=
    burst_onLine.mpr fun i j hi hj hij => hbits i j (by omega) hj hij
  by_contra hne
  have hdiffer : onLine y m ≠ onLine y' m := fun hsame => hne (damage_behind hok hok' hsame)
  have hcheck : ∀ i, m ≤ i → i < m + 2 → y i = y' i := by
    intro i hm hi
    apply UInt8.toBitVec_inj.mp
    apply BitVec.eq_of_getLsbD_eq
    exact fun j hj => hbits i j hi hj (.inr (by omega))
  have hpoly : (0xA001#16).msb = true := by decide
  refine (hcovered.mono hl).crc_ne (by omega) hpoly 0xFFFF#16 hdiffer ?_
  rw [hok, hok', hcheck m (by omega) (by omega), hcheck (m + 1) (by omega) (by omega)]

/-- Damage of 8 bits from the last byte covered into the check. -/
theorem damage_across {d : ℕ} (hok : crc 0xA001#16 0xFFFF#16 (onLine y (m + 1))
      = (y (m + 1)).toBitVec ++ (y (m + 2)).toBitVec)
    (hok' : crc 0xA001#16 0xFFFF#16 (onLine y' (m + 1))
      = (y' (m + 1)).toBitVec ++ (y' (m + 2)).toBitVec)
    (hb : Burst (8 * m + d) 8 (onLine y (m + 3)) (onLine y' (m + 3))) (hd : d < 8) :
    onLine y (m + 3) = onLine y' (m + 3) := by
  have hbits := burst_onLine.mp hb
  have hsame : ∀ i < m, y i = y' i := by
    intro i hi
    apply UInt8.toBitVec_inj.mp
    apply BitVec.eq_of_getLsbD_eq
    exact fun j hj => hbits i j (by omega) hj (.inl (by omega))
  have hlow : (y (m + 2)).toBitVec = (y' (m + 2)).toBitVec := by
    apply BitVec.eq_of_getLsbD_eq
    exact fun j hj => hbits (m + 2) j (by omega) hj (.inr (by omega))
  obtain ⟨e, he⟩ : ∃ e, e = (y m).toBitVec ^^^ (y' m).toBitVec := ⟨_, rfl⟩
  have hxor := check_xor hok hsame
  rw [hok', ← he, ← hlow] at hxor
  have hadded : checkOf e = ((y (m + 1)).toBitVec ++ (y (m + 2)).toBitVec)
      ^^^ ((y' (m + 1)).toBitVec ++ (y (m + 2)).toBitVec) := by
    rw [hxor, ← BitVec.xor_assoc, BitVec.xor_self, BitVec.zero_xor]
  have hbit : ∀ i, (checkOf e).getLsbD i = if i < 8 then false
      else (y (m + 1)).toBitVec.getLsbD (i - 8) ^^ (y' (m + 1)).toBitVec.getLsbD (i - 8) := by
    intro i
    rw [hadded, BitVec.getLsbD_xor, BitVec.getLsbD_append, BitVec.getLsbD_append]
    split
    · exact Bool.xor_self _
    · rfl
  have hzero : e = 0#8 := by
    apply checkOf_short d hd e
    · apply BitVec.eq_of_getLsbD_eq
      intro i hi
      rw [BitVec.getLsbD_setWidth, hbit, if_pos hi, Bool.and_false, BitVec.getLsbD_zero]
    · apply BitVec.eq_of_getLsbD_eq
      intro i hi
      rw [BitVec.getLsbD_shiftLeft, BitVec.getLsbD_zero, he, BitVec.getLsbD_xor]
      by_cases hlt : i < 8 - d
      · simp [hlt]
      · rw [hbits m (i - (8 - d)) (by omega) (by omega) (.inl (by omega))]
        simp
    · apply BitVec.eq_of_getLsbD_eq
      intro i hi
      rw [BitVec.getLsbD_ushiftRight, hbit, if_neg (by omega), BitVec.getLsbD_zero]
      by_cases hout : 8 ≤ 8 + d + i - 8
      · rw [BitVec.getLsbD_of_ge _ _ hout, BitVec.getLsbD_of_ge _ _ hout]
        rfl
      · rw [hbits (m + 1) (8 + d + i - 8) (by omega) (by omega) (.inr (by omega))]
        exact Bool.xor_self _
  have hlast : (y m).toBitVec = (y' m).toBitVec := by
    rw [hzero] at he
    exact (BitVec.xor_eq_zero_iff.mp he.symm)
  refine damage_behind hok hok' ?_
  rw [onLine_succ, onLine_succ, onLine_congr hsame, hlast]

/-- The check of a telegram with `m + 1` bytes before it. -/
theorem telegramOk_iff_crc {n : UInt16} {m : ℕ} (hm : n.toNat = m + 3) (z : ℕ → UInt8) :
    telegramOk z n = true ↔ crc 0xA001#16 0xFFFF#16 (onLine z (m + 1))
      = (z (m + 1)).toBitVec ++ (z (m + 2)).toBitVec := by
  rw [telegramOk_iff z (by omega), hm]
  rfl

/-- Damage that is taken is none. -/
theorem damage_none {y y' : ℕ → UInt8} {m k l : ℕ}
    (hok : crc 0xA001#16 0xFFFF#16 (onLine y (m + 1))
      = (y (m + 1)).toBitVec ++ (y (m + 2)).toBitVec)
    (hok' : crc 0xA001#16 0xFFFF#16 (onLine y' (m + 1))
      = (y' (m + 1)).toBitVec ++ (y' (m + 2)).toBitVec)
    (hb : Burst k l (onLine y (m + 3)) (onLine y' (m + 3)))
    (hwhere : (l ≤ 16 ∧ k + l ≤ 8 * (m + 1)) ∨ 8 * (m + 1) ≤ k ∨ l ≤ 8) :
    onLine y (m + 3) = onLine y' (m + 3) := by
  have hbits := burst_onLine.mp hb
  by_cases hbefore : l ≤ 16 ∧ k + l ≤ 8 * (m + 1)
  · exact damage_before hok hok' hb hbefore.1 hbefore.2
  by_cases hbehind : 8 * (m + 1) ≤ k
  · exact damage_behind hok hok' (onLine_eq fun i hi j hj =>
      hbits i j (by omega) hj (.inl (by omega)))
  · have hl : l ≤ 8 := by omega
    obtain ⟨d, hd⟩ : ∃ d, k = 8 * m + d := ⟨k - 8 * m, by omega⟩
    have hb := hb.mono hl
    rw [hd] at hb
    exact damage_across hok hok' hb (by omega)

/-- Four bits of the last byte and of the check behind it, which makes the check right. -/
theorem damage_nine {y : ℕ → UInt8} {m : ℕ}
    (hok : crc 0xA001#16 0xFFFF#16 (onLine y (m + 1))
      = (y (m + 1)).toBitVec ++ (y (m + 2)).toBitVec) :
    ∃ y', Burst (8 * m + 2) 9 (onLine y (m + 3)) (onLine y' (m + 3)) ∧
      onLine y (m + 3) ≠ onLine y' (m + 3) ∧ crc 0xA001#16 0xFFFF#16 (onLine y' (m + 1))
        = (y' (m + 1)).toBitVec ++ (y' (m + 2)).toBitVec := by
  obtain ⟨y', hy'⟩ : ∃ y' : ℕ → UInt8, y' = Function.update
      (Function.update y m (y m ^^^ 0x0C)) (m + 1) (y (m + 1) ^^^ 0x05) := ⟨_, rfl⟩
  have hlast : y' m = y m ^^^ 0x0C := by
    rw [hy', Function.update_of_ne (by omega), Function.update_self]
  have hhigh : y' (m + 1) = y (m + 1) ^^^ 0x05 := by rw [hy', Function.update_self]
  have hother : ∀ i, i ≠ m → i ≠ m + 1 → y' i = y i := by
    intro i hi hi'
    rw [hy', Function.update_of_ne hi', Function.update_of_ne hi]
  refine ⟨y', burst_onLine.mpr fun i j hi hj hij => ?_, fun hsame => ?_, ?_⟩
  · by_cases hm' : i = m
    · have hj' : (12#8).getLsbD j = false := by
        have hlow : j = 0 ∨ j = 1 := by omega
        rcases hlow with rfl | rfl <;> rfl
      have hbyte : (0x0C : UInt8).toBitVec = 12#8 := rfl
      rw [hm', hlast, UInt8.toBitVec_xor, BitVec.getLsbD_xor, hbyte, hj', Bool.xor_false]
    by_cases hm'' : i = m + 1
    · have hj' : (5#8).getLsbD j = false := by
        have hlow : j = 3 ∨ j = 4 ∨ j = 5 ∨ j = 6 ∨ j = 7 := by omega
        rcases hlow with rfl | rfl | rfl | rfl | rfl <;> rfl
      have hbyte : (0x05 : UInt8).toBitVec = 5#8 := rfl
      rw [hm'', hhigh, UInt8.toBitVec_xor, BitVec.getLsbD_xor, hbyte, hj', Bool.xor_false]
    · rw [hother i hm' hm'']
  · have hmove := onLine_inj hsame (show m < m + 3 by omega)
    rw [hlast] at hmove
    have hzero := congrArg (y m ^^^ ·) hmove
    simp only [← UInt8.xor_assoc, UInt8.xor_self, UInt8.zero_xor] at hzero
    exact absurd hzero (by decide)
  · rw [check_xor hok (fun i hi => (hother i (by omega) (by omega)).symm), hlast, hhigh,
      hother (m + 2) (by omega) (by omega), UInt8.toBitVec_xor, ← BitVec.xor_assoc,
      BitVec.xor_self, BitVec.zero_xor]
    have hcheck : checkOf (0x0C : UInt8).toBitVec = 5#8 ++ 0#8 := by decide
    rw [hcheck, BitVec.xor_append, BitVec.xor_zero, UInt8.toBitVec_xor]
    rfl

/-- **What the check finds.**  Of a telegram that is taken, no damage within 16 consecutive bits of
the bytes covered, or of the check, is taken, nor any within 8 bits; but damage of 9 bits is, of any
telegram. -/
theorem telegram_damage (y : ℕ → UInt8) (n : UInt16) (hn : 3 ≤ n.toNat)
    (hok : telegramOk y n = true) :
    (∀ y' k l, Burst k l (onLine y n.toNat) (onLine y' n.toNat) →
      onLine y n.toNat ≠ onLine y' n.toNat →
      (l ≤ 16 ∧ k + l ≤ 8 * (n.toNat - 2)) ∨ 8 * (n.toNat - 2) ≤ k ∨ l ≤ 8 →
      telegramOk y' n = false) ∧
    ∃ y' k, Burst k 9 (onLine y n.toNat) (onLine y' n.toNat) ∧
      onLine y n.toNat ≠ onLine y' n.toNat ∧ telegramOk y' n = true := by
  obtain ⟨m, hm⟩ : ∃ m, n.toNat = m + 3 := ⟨n.toNat - 3, by omega⟩
  have hiff := fun z => telegramOk_iff_crc hm z
  rw [hiff] at hok
  rw [hm]
  constructor
  · intro y' k l hb hne hwhere
    rw [← Bool.not_eq_true, hiff]
    exact fun hok' => hne (damage_none hok hok' hb hwhere)
  · obtain ⟨y', hb, hne, hok'⟩ := damage_nine hok
    exact ⟨y', _, hb, hne, (hiff y').mpr hok'⟩

/-- An answer without a message and without process data. -/
def emptyAnswer (i : ℕ) : UInt8 :=
  if i = 0 then 0x80 else if i = 17 then 0x98 else if i = 18 then 0x11 else 0

theorem emptyAnswer_damage :
    (∀ y' k l, Burst k l (onLine emptyAnswer 19) (onLine y' 19) →
      onLine emptyAnswer 19 ≠ onLine y' 19 →
      (l ≤ 16 ∧ k + l ≤ 8 * (19 - 2)) ∨ 8 * (19 - 2) ≤ k ∨ l ≤ 8 → telegramOk y' 19 = false) ∧
    ∃ y' k, Burst k 9 (onLine emptyAnswer 19) (onLine y' 19) ∧
      onLine emptyAnswer 19 ≠ onLine y' 19 ∧ telegramOk y' 19 = true :=
  telegram_damage emptyAnswer 19 (by decide) (by decide)

end Start01
