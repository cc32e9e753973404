/-
Start01/AppdAccept.lean

The checks of a remap command, and the sizes of the process data.  A command that makes sense for the
list of maps there is is accepted, with the size of the list that should be left
(`remapCheck_of_acceptable`); any other is answered by an error (`remapCheck_of_not_acceptable`).
-/
import Start01.AppdExchange

namespace Start01

open Splice

/-- A remap command makes sense for a list of maps. -/
structure Acceptable (items : List Item) (m : ℕ → UInt8) : Prop where
  dataSize : (bDataSize m).toNat = 4 + 4 * Appd.iItemsToAdd m
  end_le : Appd.endOfRemap m ≤ items.length
  count : items.length - Appd.iItemsToRemove m + Appd.iItemsToAdd m ≤ 32
  items : ∀ k < Appd.iItemsToAdd m, Appd.ItemOk m k

/-- What should be left of the list. -/
def remapped (items : List Item) (m : ℕ → UInt8) : List Item :=
  splice items (Appd.bStartOfRemap m) (Appd.endOfRemap m) (Appd.newItems m)

namespace Appd

open PdMap

variable {maps maps' : PdMap} {m : ℕ → UInt8} {size size' : UInt16}

/-! ### New maps -/

theorem findAdi_number {n : UInt16} {i : ℕ} {adi : AdiInstance} (h : findAdi n = some (i, adi)) :
    adi.iInstanceNumber = n := by
  rw [findAdi, Option.bind_eq_bind, Option.bind_eq_some_iff] at h
  obtain ⟨j, hj, h⟩ := h
  rw [Option.bind_eq_bind, Option.bind_eq_some_iff] at h
  obtain ⟨adi', hadi, h⟩ := h
  obtain ⟨rfl, rfl⟩ := Prod.mk.inj (Option.some.inj h)
  obtain ⟨hlt, hnumber, -⟩ := List.findIdx?_eq_some_iff_getElem.mp hj
  obtain ⟨-, rfl⟩ := List.getElem?_eq_some_iff.mp hadi
  exact of_decide_eq_true hnumber

theorem ItemOk.newItem {k : ℕ} (h : ItemOk m k) : ∃ it, newItem m k = some it ∧ it.Valid ∧
    ∃ i adi, findAdi (itemAdiNbr m k) = some (i, adi) ∧
      it.size = (itemElements m k).toNat * typesize adi.bDataType := by
  obtain ⟨i, adi, hadi, hle⟩ := h
  refine ⟨⟨adi.iInstanceNumber, adi.bDataType, itemElements m k, itemFirst m k, UInt16.ofNat (i + 1)⟩,
    by rw [Appd.newItem, hadi]; rfl, ⟨i, adi, ?_, rfl, hle⟩, i, adi, hadi, rfl⟩
  show findAdi adi.iInstanceNumber = _
  rw [findAdi_number hadi, hadi]

/-- The first `n` maps to add. -/
def firstItems (m : ℕ → UInt8) (n : ℕ) : List Item := (List.range n).filterMap (newItem m)

theorem firstItems_succ {n : ℕ} {it : Item} (h : newItem m n = some it) :
    firstItems m (n + 1) = firstItems m n ++ [it] := by
  rw [firstItems, List.range_succ, List.filterMap_append, List.filterMap_cons_some h]
  rfl

theorem firstItems_valid {n : ℕ} (h : ∀ k < n, ItemOk m k) : ∀ it ∈ firstItems m n, it.Valid := by
  intro it hit
  obtain ⟨k, hk, hnew⟩ := List.mem_filterMap.mp hit
  obtain ⟨it', hit', hvalid, -⟩ := (h k (List.mem_range.mp hk)).newItem
  obtain rfl := Option.some.inj (hnew.symm.trans hit')
  exact hvalid

/-! ### Sizes -/

theorem totalSize_concat (items : List Item) (it : Item) :
    totalSize (items ++ [it]) = totalSize items + it.size := by
  rw [totalSize_append, totalSize_cons]
  rfl

/-- The bytes of the maps to remove are taken off. -/
theorem removedSize_spec {start : ℕ} : ∀ {n : ℕ}, start + n ≤ numberOfInstances →
    totalSize (cells (fun k => maps.cell (start + k)) n) ≤ size.toNat →
    ∃ size₁, removedSize maps start size n = some size₁ ∧
      size₁.toNat + totalSize (cells (fun k => maps.cell (start + k)) n) = size.toNat := by
  intro n
  induction n with
  | zero => exact fun _ _ => ⟨size, rfl, rfl⟩
  | succ n ih =>
    intro hn hle
    have hsucc : cells (fun k => maps.cell (start + k)) (n + 1)
        = cells (fun k => maps.cell (start + k)) n ++ [maps.cell (start + n)] := by
      rw [cells, List.range_succ, List.map_append]
      rfl
    rw [hsucc, totalSize_concat] at hle ⊢
    obtain ⟨size₁, hremoved, hsize⟩ := ih (by omega) (by omega)
    have hget : maps.get (start + n) = some (maps.psMaps (start + n)) :=
      get_eq_some.mpr ⟨by omega, rfl⟩
    have hmap : (maps.psMaps (start + n)).size = (maps.cell (start + n)).size := rfl
    refine ⟨size₁ - UInt16.ofNat (maps.psMaps (start + n)).size, ?_, ?_⟩
    · rw [removedSize, hremoved, Option.bind_eq_bind, Option.bind_some, hget]
      rfl
    · have hlt := size₁.toNat_lt
      have hcast : (UInt16.ofNat (maps.psMaps (start + n)).size).toNat
          = (maps.cell (start + n)).size := by
        rw [UInt16.toNat_ofNat', Nat.mod_eq_of_lt (by omega), hmap]
      rw [UInt16.toNat_sub_of_le _ _ (UInt16.le_iff_toNat_le.mpr (by omega)), hcast]
      omega

/-- The bytes of the maps to add are put on. -/
theorem checkItems_spec : ∀ {n : ℕ}, (∀ k < n, ItemOk m k) → size.toNat + 2 * n < 65536 →
    ∃ size', checkItems m size n = .ok size' ∧
      size'.toNat = size.toNat + totalSize (firstItems m n) := by
  intro n
  induction n with
  | zero => exact fun _ _ => ⟨size, rfl, rfl⟩
  | succ n ih =>
    intro hok hlt
    obtain ⟨size₁, hcheck, hsize⟩ := ih (fun k hk => hok k (by omega)) (by omega)
    obtain ⟨it, hit, hvalid, i, adi, hadi, hitsize⟩ := (hok n (Nat.lt_succ_self n)).newItem
    obtain ⟨i', adi', hadi', hle⟩ := hok n (Nat.lt_succ_self n)
    obtain ⟨rfl, rfl⟩ := Prod.mk.inj (Option.some.inj (hadi.symm.trans hadi'))
    have htotal := totalSize_le (firstItems_valid fun k hk => hok k (Nat.lt_succ_of_lt hk))
    have hlen : (firstItems m n).length ≤ n := by
      refine (List.length_filterMap_le _ _).trans ?_
      rw [List.length_range]
    have hsmall := hvalid.size_le
    -- there is no instance with the number 6
    have hsix : ¬ (itemAdiNbr m n = 6 ∧ (itemFirst m n ≠ 0 ∨ itemElements m n ≠ 2)) := by
      rintro ⟨hsix, -⟩
      rw [hsix] at hadi
      have hnone : (findAdi 6).isSome = false := by decide
      rw [hadi] at hnone
      cases hnone
    refine ⟨size₁ + UInt16.ofNat ((itemElements m n).toNat * typesize adi.bDataType), ?_, ?_⟩
    · rw [checkItems, hcheck]
      show checkItem m size₁ n = _
      rw [checkItem, hadi]
      dsimp only
      rw [if_neg hsix, if_neg (Nat.not_lt.mpr hle)]
    · rw [firstItems_succ hit, totalSize_concat, ← hitsize, UInt16.toNat_add, UInt16.toNat_ofNat']
      omega

/-- The size of the list that is left. -/
theorem totalSize_remapped (items : List Item) :
    totalSize (remapped items m)
        + totalSize ((items.drop (bStartOfRemap m)).take (iItemsToRemove m))
      = totalSize items + totalSize (newItems m) := by
  have hsplit : items = items.take (bStartOfRemap m)
      ++ ((items.drop (bStartOfRemap m)).take (iItemsToRemove m) ++ items.drop (endOfRemap m)) := by
    rw [endOfRemap, ← List.drop_drop, List.take_append_drop, List.take_append_drop]
  have htotal := congrArg totalSize hsplit
  rw [totalSize_append, totalSize_append] at htotal
  rw [remapped, splice, totalSize_append, totalSize_append]
  omega

/-! ### The checks -/

/-- The bytes of the maps to remove are those of a part of the list. -/
theorem removedSize_of_end_le (h : MapsOk maps) (hsize : size.toNat = totalSize maps.items)
    (hend : endOfRemap m ≤ maps.iNbrMaps.toNat) :
    ∃ size₁, removedSize maps (bStartOfRemap m) size (iItemsToRemove m) = some size₁ ∧
      size₁.toNat
        + totalSize ((maps.items.drop (bStartOfRemap m)).take (iItemsToRemove m)) = size.toNat := by
  have hfits : maps.iNbrMaps.toNat ≤ numberOfInstances := h.fits
  have hend' : bStartOfRemap m + iItemsToRemove m ≤ maps.iNbrMaps.toNat := hend
  have hpart := take_drop_cells maps.cell hend'
  have hle := totalSize_remapped maps.items (m := m)
  have hnew : totalSize (newItems m) ≤ totalSize (remapped maps.items m) := by
    rw [remapped, splice, totalSize_append, totalSize_append]
    omega
  rw [PdMap.items] at hle hsize hnew ⊢
  rw [hpart] at hle ⊢
  exact removedSize_spec (by omega) (by omega)

/-- **Checks.**  A command that makes sense is accepted, with the size of the list that should be
left. -/
theorem remapCheck_of_acceptable (h : MapsOk maps) (hsize : size.toNat = totalSize maps.items)
    (hacc : Acceptable maps.items m) : ∃ size', remapCheck maps size m = some (.ok size') ∧
      size'.toNat = totalSize (remapped maps.items m) := by
  obtain ⟨hdata, hend, hcount, hitems⟩ := hacc
  rw [PdMap.length_items] at hend hcount
  have hstart : bStartOfRemap m ≤ endOfRemap m := Nat.le_add_right _ _
  have hten := h.totalSize_le
  obtain ⟨size₁, hremoved, hsize₁⟩ := removedSize_of_end_le h hsize hend
  obtain ⟨size', hcheck, hsize'⟩ := @checkItems_spec m size₁ _ hitems (by omega)
  have htotal := totalSize_remapped maps.items (m := m)
  have hnew : newItems m = firstItems m (iItemsToAdd m) := rfl
  have hsmall := totalSize_le (firstItems_valid hitems)
  have hlen : (firstItems m (iItemsToAdd m)).length ≤ iItemsToAdd m := by
    refine (List.length_filterMap_le _ _).trans ?_
    rw [List.length_range]
  rw [hnew] at htotal
  refine ⟨size', ?_, by omega⟩
  unfold remapCheck
  rw [if_neg (by omega), if_neg (by omega), if_neg (by omega), hremoved, Option.bind_eq_bind,
    Option.bind_some]
  unfold remapCheckAdd
  rw [if_neg (by omega), if_neg (by omega), if_neg (by omega), hcheck]
  show some (if size' > 256 then Except.error (⟨.objSpecific, some 0x03⟩ : RemapError)
    else .ok size') = _
  rw [if_neg]
  intro hgt
  have hgt : 256 < size'.toNat := UInt16.lt_iff_toNat_lt.mp hgt
  omega

/-- A command that does not is answered by an error. -/
theorem remapCheck_of_not_acceptable (h : MapsOk maps) (hsize : size.toNat = totalSize maps.items)
    (hacc : ¬ Acceptable maps.items m) : ∃ e, remapCheck maps size m = some (.error e) := by
  have hsome : ∃ r, remapCheck maps size m = some r := by
    unfold remapCheck
    split
    · exact ⟨_, rfl⟩
    split
    · exact ⟨_, rfl⟩
    split
    · exact ⟨_, rfl⟩
    · rename_i hend
      obtain ⟨size₁, hremoved, -⟩ := removedSize_of_end_le h hsize (Nat.not_lt.mp hend)
      rw [hremoved]
      exact ⟨_, rfl⟩
  obtain ⟨r, hr⟩ := hsome
  cases r with
  | error e => exact ⟨e, hr⟩
  | ok size' =>
    obtain ⟨-, -, haccepted, -⟩ := remapCheck_ok hr
    refine absurd ⟨?_, ?_, ?_, haccepted.items⟩ hacc
    · rw [haccepted.dataSize, Nat.mul_comm]
    · rw [PdMap.length_items]
      exact haccepted.end_le
    · rw [PdMap.length_items]
      exact haccepted.count

/-- The list that is left is one of instances. -/
theorem MapsOk.of_spliced (h : MapsOk maps) (hacc : Acceptable maps.items m)
    (hsp : Spliced maps maps' m) : MapsOk maps' ∧ maps'.items = remapped maps.items m := by
  refine ⟨⟨hsp.1, fun it hit => ?_⟩, hsp.2⟩
  rw [hsp.2] at hit
  rcases mem_splice hit with hit | hit
  · exact h.valid it hit
  · exact firstItems_valid hacc.items it hit

end Appd

end Start01
