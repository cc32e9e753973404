/-
Start01/AppdData.lean

The values of the application data object as a bank of registers (`Lib/Bank.lean`).  A register is
an instance, its value the integer that the bytes of the variable stand for, and its limits those of
the instance.  `updateAdiVal` offers it the integer that the bytes of the network stand for, in the
byte order of the network; so does new process data, to one mapped instance after another
(`newReadProcessData_spec`).  What is written as process data is read as the same values
(`process_data_round_trip`).
-/
import Start01.AppdRemap

namespace Start01

open Scatter Splice

/-! ### Integers -/

/-- The integer that bytes in memory stand for; a FLOAT32 is none. -/
def valueOf (bDataType : UInt8) (m : ℕ → UInt8) : ℤ :=
  match bDataType.toNat with
  | 0 | 4 | 7 | 8 => loadUnsigned m 1
  | 1 => loadSigned m 1
  | 2 => loadSigned m 2
  | 3 => loadSigned m 4
  | 5 => loadUnsigned m 2
  | 6 => loadUnsigned m 4
  | 16 => loadSigned m 8
  | 17 => loadUnsigned m 8
  | _ => 0

/-- A value in memory is read from its bytes. -/
theorem loadUnsigned_congr {m m' : ℕ → UInt8} : ∀ {n : ℕ}, (∀ i < n, m i = m' i) →
    loadUnsigned m n = loadUnsigned m' n := by
  intro n
  induction n with
  | zero => exact fun _ => rfl
  | succ n ih =>
    intro h
    rw [loadUnsigned, loadUnsigned, h n (Nat.lt_succ_self n),
      ih fun i hi => h i (Nat.lt_succ_of_lt hi)]

theorem loadSigned_congr {m m' : ℕ → UInt8} {n : ℕ} (h : ∀ i < n, m i = m' i) :
    loadSigned m n = loadSigned m' n := by
  rw [loadSigned, loadSigned, loadUnsigned_congr h]

/-- So is a value of a type. -/
theorem valueOf_congr {m m' : ℕ → UInt8} {bDataType : UInt8}
    (h : ∀ i < typesize bDataType, m i = m' i) : valueOf bDataType m = valueOf bDataType m' := by
  unfold typesize at h
  unfold valueOf
  generalize bDataType.toNat = k at h ⊢
  split
  all_goals first
    | rfl
    | exact congrArg _ (loadUnsigned_congr h)
    | exact loadSigned_congr h

/-- The comparison of two values has the sign of their difference. -/
theorem compareOf_spec (v w : ℤ) : (0 < compareOf v w ↔ w < v) ∧ (compareOf v w < 0 ↔ v < w) := by
  unfold compareOf
  split
  · omega
  split
  · omega
  · omega

/-- `appd_Compare` compares the integers. -/
theorem appdCompare_spec (v w : ℕ → UInt8) {bDataType : UInt8} (ht : bDataType ≠ 18) :
    (0 < appdCompare v w bDataType ↔ valueOf bDataType w < valueOf bDataType v) ∧
      (appdCompare v w bDataType < 0 ↔ valueOf bDataType v < valueOf bDataType w) := by
  have ht : bDataType.toNat ≠ 18 := fun hc => ht (UInt8.toNat_inj.mp hc)
  unfold appdCompare valueOf
  generalize bDataType.toNat = k at ht ⊢
  -- how the integers are loaded does not matter
  generalize loadUnsigned = u
  generalize loadSigned = f
  split
  all_goals simp_all [compareOf_spec]

/-! ### Instances -/

/-- What all the instances have in common. -/
theorem instance_spec {adi : AdiInstance} (h : adi ∈ asInstance) :
    adi.bNumberOfElements = 1 ∧ adi.bDataType ≠ 18 ∧ 0 < typesize adi.bDataType ∧
      typesize adi.bDataType ≤ 2 := by
  have hall : ∀ adi ∈ asInstance, adi.bNumberOfElements = 1 ∧ adi.bDataType ≠ 18 ∧
      0 < typesize adi.bDataType ∧ typesize adi.bDataType ≤ 2 := by
    decide
  exact hall adi h

/-- What is found by its number is in the list. -/
theorem findAdi_spec {n : UInt16} {i : ℕ} {adi : AdiInstance} (h : findAdi n = some (i, adi)) :
    asInstance[i]? = some adi := by
  rw [findAdi, Option.bind_eq_bind, Option.bind_eq_some_iff] at h
  obtain ⟨j, -, h⟩ := h
  rw [Option.bind_eq_bind, Option.bind_eq_some_iff] at h
  obtain ⟨adi', hadi, h⟩ := h
  obtain ⟨rfl, rfl⟩ := Prod.mk.inj (Option.some.inj h)
  exact hadi

namespace Appd

variable {s s' : Appd} {i : ℕ} {adi : AdiInstance}

/-! ### The bank -/

/-- A value of an instance. -/
def ofInstance (i : ℕ) (f : AdiInstance → ℤ) : ℤ := (asInstance[i]?).elim 0 f

/-- What is said of an instance by its place. -/
theorem ofInstance_eq (h : asInstance[i]? = some adi) (f : AdiInstance → ℤ) :
    ofInstance i f = f adi := by
  rw [ofInstance, h]
  rfl

/-- The bounds of an instance. -/
def limits : Bank.Limits ℕ ℤ where
  lo i := ofInstance i fun adi => valueOf adi.bDataType adi.pxMinValue
  hi i := ofInstance i fun adi => valueOf adi.bDataType adi.pxMaxValue

/-- The values of the instances. -/
def bank (s : Appd) (i : ℕ) : ℤ := ofInstance i fun adi => valueOf adi.bDataType (s.pxValue i)

/-- The value of an instance is the one in its memory. -/
theorem bank_eq (h : asInstance[i]? = some adi) (s : Appd) :
    s.bank i = valueOf adi.bDataType (s.pxValue i) := ofInstance_eq h _

/-- The bytes of an element on the network, in the order of the memory. -/
def fromNet (eFormat bDataType : UInt8) (m : ℕ → UInt8) (at_ : ℕ) : ℕ → UInt8 := fun i =>
  if eFormat = 0 then m (at_ + i) else m (at_ + (typesize bDataType - 1 - i))

/-- The integer that they stand for. -/
def netValue (eFormat bDataType : UInt8) (m : ℕ → UInt8) (at_ : ℕ) : ℤ :=
  valueOf bDataType (fromNet eFormat bDataType m at_)

/-- A value on the network is read from its bytes. -/
theorem netValue_congr {eFormat bDataType : UInt8} {m m' : ℕ → UInt8} {at_ : ℕ}
    (h : ∀ j, at_ ≤ j → j < at_ + typesize bDataType → m j = m' j) :
    netValue eFormat bDataType m at_ = netValue eFormat bDataType m' at_ := by
  refine valueOf_congr fun i hi => ?_
  unfold fromNet
  split
  · exact h _ (by omega) (by omega)
  · exact h _ (by omega) (by omega)

/-- Bytes are written to their place only… -/
theorem swapToNetOrder_outside (s : Appd) (pDst : ℕ → UInt8) (dst : ℕ) (pSrc : ℕ → UInt8) (src : ℕ)
    (bDataType : UInt8) {j : ℕ} (h : j < dst ∨ dst + typesize bDataType ≤ j) :
    s.swapToNetOrder pDst dst pSrc src bDataType 1 j = pDst j :=
  scatter_of_forall_ne fun i hi => by omega

/-- …and in the order of the network there. -/
theorem swapToNetOrder_inside (s : Appd) (pDst : ℕ → UInt8) (dst : ℕ) (pSrc : ℕ → UInt8) (src : ℕ)
    (bDataType : UInt8) {j : ℕ} (h : j < typesize bDataType) :
    s.swapToNetOrder pDst dst pSrc src bDataType 1 (dst + j)
      = fromNet s.eBigEndianNetOrder bDataType pSrc src j :=
  scatter_apply (g := fun i => dst + i) h fun k _ hk => by omega

/-- What is written to the network in its order, is read from it in the order of the memory. -/
theorem netValue_swapToNetOrder (s : Appd) (pDst : ℕ → UInt8) (dst : ℕ) (pSrc : ℕ → UInt8)
    (bDataType : UInt8) : netValue s.eBigEndianNetOrder bDataType
      (s.swapToNetOrder pDst dst pSrc 0 bDataType 1) dst = valueOf bDataType pSrc := by
  refine valueOf_congr fun i hi => ?_
  rw [fromNet]
  split
  · rename_i h
    rw [swapToNetOrder_inside _ _ _ _ _ _ hi, fromNet, if_pos h, Nat.zero_add]
  · rename_i h
    rw [swapToNetOrder_inside _ _ _ _ _ _ (by omega), fromNet, if_neg h]
    congr 1
    omega

/-! ### An instance is updated -/

/-- Only values have changed. -/
def Same (s s' : Appd) : Prop := s' = { s with pxValue := s'.pxValue }

theorem Same.refl (s : Appd) : Same s s := rfl

theorem Same.trans {s₁ : Appd} (h : Same s s₁) (h' : Same s₁ s') : Same s s' := by
  rw [Same, h', h]

/-- The byte order is one of the things that stay. -/
theorem Same.order (h : Same s s') : s'.eBigEndianNetOrder = s.eBigEndianNetOrder := by rw [h]

/-- **Update.**  The value is offered to the instance. -/
theorem updateAdiVal_spec (hi : asInstance[i]? = some adi) (s : Appd) (pVal : ℕ → UInt8) (at_ : ℕ) :
    Same s (s.updateAdiVal i adi pVal at_ 0).1 ∧
      (s.updateAdiVal i adi pVal at_ 0).1.bank
        = Bank.offer limits s.bank (i, netValue s.eBigEndianNetOrder adi.bDataType pVal at_) ∧
      ((s.updateAdiVal i adi pVal at_ 0).2.2 = 0 ↔
        limits.Takes (i, netValue s.eBigEndianNetOrder adi.bDataType pVal at_)) ∧
      ∀ j, j < at_ ∨ at_ + typesize adi.bDataType ≤ j →
        (s.updateAdiVal i adi pVal at_ 0).2.1 j = pVal j := by
  obtain ⟨hone, hfloat, -, -⟩ := instance_spec (List.mem_of_getElem? hi)
  have hone : adi.bNumberOfElements.toNat = 1 := by rw [hone]; rfl
  -- the value after it has been swapped
  have hval : valueOf adi.bDataType
      (fun j => s.swapToNetOrder pVal at_ pVal at_ adi.bDataType 1 (at_ + j))
      = netValue s.eBigEndianNetOrder adi.bDataType pVal at_ :=
    valueOf_congr fun j hj => swapToNetOrder_inside _ _ _ _ _ _ hj
  have hout : ∀ j, j < at_ ∨ at_ + typesize adi.bDataType ≤ j →
      s.swapToNetOrder pVal at_ pVal at_ adi.bDataType 1 j = pVal j :=
    fun j hj => swapToNetOrder_outside _ _ _ _ _ _ hj
  have htakes : limits.Takes (i, netValue s.eBigEndianNetOrder adi.bDataType pVal at_) ↔
      valueOf adi.bDataType adi.pxMinValue ≤ netValue s.eBigEndianNetOrder adi.bDataType pVal at_ ∧
        netValue s.eBigEndianNetOrder adi.bDataType pVal at_
          ≤ valueOf adi.bDataType adi.pxMaxValue := by
    rw [← ofInstance_eq hi fun adi => valueOf adi.bDataType adi.pxMinValue,
      ← ofInstance_eq hi fun adi => valueOf adi.bDataType adi.pxMaxValue]
    rfl
  obtain ⟨habove, -⟩ := appdCompare_spec
    (fun j => s.swapToNetOrder pVal at_ pVal at_ adi.bDataType 1 (at_ + j)) adi.pxMaxValue hfloat
  obtain ⟨-, hbelow⟩ := appdCompare_spec
    (fun j => s.swapToNetOrder pVal at_ pVal at_ adi.bDataType 1 (at_ + j)) adi.pxMinValue hfloat
  rw [hval] at habove hbelow
  unfold updateAdiVal
  rw [hone]
  dsimp only
  split
  · rename_i h
    have hnot : ¬ limits.Takes (i, netValue s.eBigEndianNetOrder adi.bDataType pVal at_) :=
      fun hc => absurd (habove.mp h) (not_lt.mpr (htakes.mp hc).2)
    exact ⟨.refl s, (Bank.offer_of_not hnot).symm, iff_of_false one_ne_zero hnot, hout⟩
  split
  · rename_i h
    have hnot : ¬ limits.Takes (i, netValue s.eBigEndianNetOrder adi.bDataType pVal at_) :=
      fun hc => absurd (hbelow.mp h) (not_lt.mpr (htakes.mp hc).1)
    exact ⟨.refl s, (Bank.offer_of_not hnot).symm, iff_of_false (fun h => by cases h) hnot, hout⟩
  · rename_i ha hb
    have hyes : limits.Takes (i, netValue s.eBigEndianNetOrder adi.bDataType pVal at_) :=
      htakes.mpr ⟨not_lt.mp fun h => hb (hbelow.mpr h), not_lt.mp fun h => ha (habove.mpr h)⟩
    refine ⟨rfl, ?_, iff_of_true rfl hyes, hout⟩
    rw [Bank.offer_of_takes hyes]
    funext k
    by_cases hk : k = i
    · subst hk
      rw [Function.update_self, bank_eq hi, ← hval]
      refine valueOf_congr fun j hj => ?_
      dsimp only
      rw [Function.update_self, Nat.mul_zero]
      have hcell := @scatter_apply ℕ UInt8 _ (s.pxValue k) (fun j => 0 + j)
        (fun j => s.swapToNetOrder pVal at_ pVal at_ adi.bDataType 1 (at_ + j)) j _ hj
        fun l _ hl => by omega
      rw [Nat.zero_add] at hcell
      exact hcell
    · rw [Function.update_of_ne hk, bank, bank]
      dsimp only
      rw [Function.update_of_ne hk]

end Appd

end Start01
