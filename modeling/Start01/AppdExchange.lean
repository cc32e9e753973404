/-
Start01/AppdExchange.lean

Process data of the application data object.  New read process data is offered to the mapped
instances one after another, each the bytes at its place (`newReadProcessData_spec`); the write
process data has the value of each mapped instance at its place (`processDataChanged_spec`).  So what
one drive writes is offered to another that has it mapped the same way (`process_data_round_trip`).
-/
import Start01.AppdData

namespace Start01

open Scatter Splice

/-! ### Maps of instances -/

namespace Item

/-- The bytes of a map. -/
def size (it : Item) : ℕ := it.bNbrElements.toNat * typesize it.bDataType

/-- A map of an instance, of elements that it has. -/
def Valid (it : Item) : Prop :=
  ∃ i adi, findAdi it.iAdiNbr = some (i, adi) ∧ it.bDataType = adi.bDataType ∧
    it.bFirstElement.toNat + it.bNbrElements.toNat ≤ adi.bNumberOfElements.toNat

/-- The instance that is mapped, if an element of it is. -/
def mapped (it : Item) : Option ℕ :=
  if it.bNbrElements = 0 then none else (findAdi it.iAdiNbr).map Prod.fst

variable {it : Item}

/-- No element is mapped, or the only one. -/
theorem Valid.cases (h : it.Valid) : ∃ i adi, findAdi it.iAdiNbr = some (i, adi) ∧
    asInstance[i]? = some adi ∧ it.bDataType = adi.bDataType ∧
      (it.bNbrElements.toNat = 0 ∧ it.mapped = none ∧ it.size = 0 ∨
        it.bNbrElements.toNat = 1 ∧ it.bFirstElement.toNat = 0 ∧ it.mapped = some i ∧
          it.size = typesize adi.bDataType) := by
  obtain ⟨i, adi, hadi, htype, hle⟩ := h
  have hi := findAdi_spec hadi
  obtain ⟨hone, -⟩ := instance_spec (List.mem_of_getElem? hi)
  have hle : it.bFirstElement.toNat + it.bNbrElements.toNat ≤ 1 := by
    rw [hone] at hle
    exact hle
  refine ⟨i, adi, hadi, hi, htype, ?_⟩
  by_cases hn : it.bNbrElements.toNat = 0
  · have hzero : it.bNbrElements = 0 := UInt8.toNat_inj.mp hn
    exact .inl ⟨hn, if_pos hzero, by rw [size, hn, Nat.zero_mul]⟩
  · have hzero : it.bNbrElements ≠ 0 := fun hc => hn (by rw [hc]; rfl)
    have hn : it.bNbrElements.toNat = 1 := by omega
    refine .inr ⟨hn, by omega, ?_, by rw [size, hn, Nat.one_mul, htype]⟩
    rw [mapped, if_neg hzero, hadi]
    rfl

/-- No element is longer than two bytes. -/
theorem Valid.size_le (h : it.Valid) : it.size ≤ 2 := by
  obtain ⟨i, adi, -, hi, -, hcases⟩ := h.cases
  obtain ⟨-, -, -, hle⟩ := instance_spec (List.mem_of_getElem? hi)
  rcases hcases with ⟨-, -, hsize⟩ | ⟨-, -, -, hsize⟩
  · omega
  · omega

end Item

/-- The bytes of maps. -/
def totalSize (items : List Item) : ℕ := (items.map Item.size).sum

theorem totalSize_cons (it : Item) (items : List Item) :
    totalSize (it :: items) = it.size + totalSize items := by
  rw [totalSize, List.map_cons, List.sum_cons]
  rfl

/-- Lists of maps lie one behind the other. -/
theorem totalSize_append (items items' : List Item) :
    totalSize (items ++ items') = totalSize items + totalSize items' := by
  rw [totalSize, List.map_append, List.sum_append]
  rfl

theorem totalSize_le {items : List Item} (h : ∀ it ∈ items, it.Valid) :
    totalSize items ≤ 2 * items.length := by
  induction items with
  | nil => exact Nat.le_refl 0
  | cons it items ih =>
    have hle := (h it List.mem_cons_self).size_le
    have hrest := ih fun it' hit' => h it' (List.mem_cons_of_mem it hit')
    rw [totalSize_cons, List.length_cons]
    omega

/-- The instances that maps map. -/
def mappedOf (items : List Item) : List ℕ := items.filterMap Item.mapped

namespace Appd

variable {s s' : Appd}

/-! ### Reading -/

/-- The bytes at the place of each map, as offers to the instances. -/
def fields (eFormat : UInt8) (m : ℕ → UInt8) : ℕ → List Item → List (ℕ × ℤ)
  | _, [] => []
  | at_, it :: items =>
    (it.mapped.map fun i => (i, netValue eFormat it.bDataType m at_)).toList
      ++ fields eFormat m (at_ + it.size) items

/-- The fields are read from their bytes. -/
theorem fields_congr {eFormat : UInt8} {m m' : ℕ → UInt8} :
    ∀ {items : List Item} {at_ : ℕ}, (∀ it ∈ items, it.Valid) →
      (∀ j, at_ ≤ j → j < at_ + totalSize items → m j = m' j) →
      fields eFormat m at_ items = fields eFormat m' at_ items := by
  intro items
  induction items with
  | nil => exact fun _ _ => rfl
  | cons it items ih =>
    intro at_ hvalid h
    rw [totalSize_cons] at h
    have hhead : it.mapped.map (fun i => (i, netValue eFormat it.bDataType m at_))
        = it.mapped.map fun i => (i, netValue eFormat it.bDataType m' at_) := by
      obtain ⟨i, adi, -, -, htype, hcases⟩ := (hvalid it List.mem_cons_self).cases
      rcases hcases with ⟨-, hnone, -⟩ | ⟨-, -, hsome, hsize⟩
      · rw [hnone, Option.map_none, Option.map_none]
      · have hbytes : netValue eFormat it.bDataType m at_ = netValue eFormat it.bDataType m' at_ :=
          netValue_congr fun j hj hj' => h j hj (by
            rw [htype] at hj'
            omega)
        rw [hbytes]
    rw [fields, fields, hhead, ih (fun it' hit' => hvalid it' (List.mem_cons_of_mem it hit'))
      fun j hj hj' => h j (by omega) (by omega)]

/-- The part of a map that counts is its item. -/
theorem readMap_spec {map : PdAdiMap} (h : map.item.Valid) (s : Appd) (abData : ℕ → UInt8)
    {at_ : ℕ} (hat : at_ + map.item.size < 256) :
    ∃ s' abData', readMap (s, abData, UInt8.ofNat at_) map
        = some (s', abData', UInt8.ofNat (at_ + map.item.size)) ∧
      Same s s' ∧ s'.bank = Bank.offers limits s.bank (map.item.mapped.map fun i =>
        (i, netValue s.eBigEndianNetOrder map.bDataType abData at_)).toList ∧
      ∀ j, at_ + map.item.size ≤ j → abData' j = abData j := by
  obtain ⟨i, adi, hadi, hi, htype, hcases⟩ := h.cases
  have hadi : findAdi map.iAdiNbr = some (i, adi) := hadi
  have htype : map.bDataType = adi.bDataType := htype
  rw [readMap, hadi]
  rcases hcases with ⟨hn, hnone, hsize⟩ | ⟨hn, hfirst, hsome, hsize⟩
  · have hn : map.bNbrElements.toNat = 0 := hn
    rw [hnone, hsize]
    refine ⟨s, abData, ?_, .refl s, rfl, fun j _ => rfl⟩
    show some (readElements map i adi map.bNbrElements.toNat (s, abData, UInt8.ofNat at_)) = _
    rw [hn]
    rfl
  · have hn : map.bNbrElements.toNat = 1 := hn
    have hfirst : map.bFirstElement.toNat = 0 := hfirst
    have hcast : (UInt8.ofNat at_).toNat = at_ := by
      rw [UInt8.toNat_ofNat', Nat.mod_eq_of_lt (by omega)]
    obtain ⟨hsame, hbank, -, hout⟩ := updateAdiVal_spec hi s abData at_
    rw [hsome, hsize]
    refine ⟨_, _, ?_, hsame, ?_, fun j hj => hout j (.inr hj)⟩
    · show some (readElements map i adi map.bNbrElements.toNat (s, abData, UInt8.ofNat at_)) = _
      rw [hn, readElements, readElements]
      dsimp only
      rw [hcast, hfirst, UInt8.ofNat_add]
    · rw [hbank, htype]
      rfl

/-- **Reading.**  The maps take their fields one after the other. -/
theorem readMaps_spec : ∀ {maps : List PdAdiMap} {s : Appd} {abData : ℕ → UInt8} {at_ : ℕ},
    (∀ it ∈ maps.map PdAdiMap.item, it.Valid) →
    at_ + totalSize (maps.map PdAdiMap.item) < 256 →
    ∃ s' abData' n, maps.foldlM readMap (s, abData, UInt8.ofNat at_) = some (s', abData', n) ∧
      Same s s' ∧
      s'.bank = Bank.offers limits s.bank
        (fields s.eBigEndianNetOrder abData at_ (maps.map PdAdiMap.item)) := by
  intro maps
  induction maps with
  | nil => exact fun _ _ => ⟨_, _, _, rfl, .refl _, rfl⟩
  | cons map maps ih =>
    intro s abData at_ hvalid hat
    rw [List.map_cons] at hvalid hat
    have htail : ∀ it ∈ maps.map PdAdiMap.item, it.Valid :=
      fun it hit => hvalid it (List.mem_cons_of_mem _ hit)
    rw [totalSize_cons] at hat
    obtain ⟨s₁, ab₁, hread, hsame, hbank, hout⟩ :=
      readMap_spec (hvalid _ List.mem_cons_self) s abData
        (show at_ + map.item.size < 256 by omega)
    obtain ⟨s₂, ab₂, n, hreads, hsame₂, hbank₂⟩ :=
      @ih s₁ ab₁ (at_ + map.item.size) htail (by omega)
    refine ⟨s₂, ab₂, n, ?_, hsame.trans hsame₂, ?_⟩
    · rw [List.foldlM_cons, hread]
      exact hreads
    · have hrest : fields s₁.eBigEndianNetOrder ab₁ (at_ + map.item.size) (maps.map PdAdiMap.item)
          = fields s.eBigEndianNetOrder abData (at_ + map.item.size) (maps.map PdAdiMap.item) :=
        hsame.order ▸ fields_congr htail fun j hj _ => hout j hj
      rw [hbank₂, hbank, hrest, List.map_cons, fields, Bank.offers_append]
      rfl

/-- The maps of an area. -/
structure MapsOk (maps : PdMap) : Prop where
  fits : maps.Fits
  valid : ∀ it ∈ maps.items, it.Valid

namespace MapsOk

variable {maps : PdMap}

/-- The maps of the list as items. -/
theorem items_eq (maps : PdMap) :
    (cells maps.psMaps maps.iNbrMaps.toNat).map PdAdiMap.item = maps.items := by
  rw [cells, List.map_map]
  rfl

theorem totalSize_le (h : MapsOk maps) : totalSize maps.items ≤ 10 := by
  have hle := Start01.totalSize_le h.valid
  have hfits : maps.iNbrMaps.toNat ≤ 5 := h.fits
  rw [PdMap.length_items] at hle
  omega

end MapsOk

/-- **New read process data** is offered to the mapped instances. -/
theorem newReadProcessData_spec (h : MapsOk s.sMyReadMappings) (abData : ℕ → UInt8) :
    ∃ s', s.newReadProcessData abData = some s' ∧ Same s s' ∧
      s'.bank = Bank.offers limits s.bank
        (fields s.eBigEndianNetOrder abData 0 s.sMyReadMappings.items) := by
  obtain ⟨s', ab', n, hread, hsame, hbank⟩ :=
    @readMaps_spec (cells s.sMyReadMappings.psMaps s.sMyReadMappings.iNbrMaps.toNat) s abData 0
      (by rw [MapsOk.items_eq]; exact h.valid)
      (by
        rw [MapsOk.items_eq]
        have := h.totalSize_le
        omega)
  rw [MapsOk.items_eq] at hbank
  refine ⟨s', ?_, hsame, hbank⟩
  have hread : List.foldlM readMap (s, abData, 0) _ = some (s', ab', n) := hread
  simp only [newReadProcessData, PdMap.all_of_fits h.fits, hread, Option.bind_eq_bind,
    Option.bind_some]
  rfl

/-! ### Writing -/

/-- One map writes its field. -/
theorem writeMap_spec {map : PdAdiMap} (h : map.item.Valid) (s : Appd) (abData : ℕ → UInt8)
    {at_ : ℕ} (hat : at_ + map.item.size < 256) :
    ∃ abData', s.writeMap (abData, UInt8.ofNat at_) map
        = some (abData', UInt8.ofNat (at_ + map.item.size)) ∧
      (∀ j, j < at_ → abData' j = abData j) ∧
      ∀ i, map.item.mapped = some i →
        netValue s.eBigEndianNetOrder map.bDataType abData' at_ = s.bank i := by
  obtain ⟨i, adi, hadi, hi, htype, hcases⟩ := h.cases
  have hadi : findAdi map.iAdiNbr = some (i, adi) := hadi
  have htype : map.bDataType = adi.bDataType := htype
  have hcast : (UInt8.ofNat at_).toNat = at_ := by
    rw [UInt8.toNat_ofNat', Nat.mod_eq_of_lt (by omega)]
  have hindex : UInt8.ofNat at_ + UInt8.ofNat (map.bNbrElements.toNat * typesize adi.bDataType)
      = UInt8.ofNat (at_ + map.item.size) := by
    rw [← htype, UInt8.ofNat_add]
    rfl
  rw [writeMap, hadi, Option.bind_eq_bind, Option.bind_some]
  dsimp only
  rw [hindex, hcast]
  rcases hcases with ⟨hn, hnone, -⟩ | ⟨hn, hfirst, hsome, -⟩
  · have hn : map.bNbrElements.toNat = 0 := hn
    rw [hn, hnone]
    exact ⟨_, rfl, fun j _ => rfl, fun i hi => by cases hi⟩
  · have hn : map.bNbrElements.toNat = 1 := hn
    have hfirst : map.bFirstElement.toNat = 0 := hfirst
    rw [hn, hfirst, Nat.zero_mul, hsome]
    refine ⟨_, rfl, fun j hj => swapToNetOrder_outside _ _ _ _ _ _ (.inl hj), ?_⟩
    intro k hk
    obtain rfl := Option.some.inj hk
    rw [htype, netValue_swapToNetOrder, bank_eq hi]

/-- **Writing.**  The maps write theirs one after the other. -/
theorem writeMaps_spec : ∀ {maps : List PdAdiMap} {abData : ℕ → UInt8} {at_ : ℕ},
    (∀ it ∈ maps.map PdAdiMap.item, it.Valid) →
    at_ + totalSize (maps.map PdAdiMap.item) < 256 →
    ∃ abData' n, maps.foldlM s.writeMap (abData, UInt8.ofNat at_) = some (abData', n) ∧
      (∀ j, j < at_ → abData' j = abData j) ∧
      fields s.eBigEndianNetOrder abData' at_ (maps.map PdAdiMap.item)
        = (mappedOf (maps.map PdAdiMap.item)).map fun i => (i, s.bank i) := by
  intro maps
  induction maps with
  | nil => exact fun _ _ => ⟨_, _, rfl, fun _ _ => rfl, rfl⟩
  | cons map maps ih =>
    intro abData at_ hvalid hat
    rw [List.map_cons] at hvalid hat
    rw [totalSize_cons] at hat
    have hmap := hvalid _ List.mem_cons_self
    obtain ⟨ab₁, hwrite, hkeep, hvalue⟩ := writeMap_spec hmap s abData
      (show at_ + map.item.size < 256 by omega)
    obtain ⟨ab₂, n, hwrites, hkeep₂, hfields⟩ := @ih ab₁ (at_ + map.item.size)
      (fun it hit => hvalid it (List.mem_cons_of_mem _ hit)) (by omega)
    refine ⟨ab₂, n, ?_, fun j hj => (hkeep₂ j (by omega)).trans (hkeep j hj), ?_⟩
    · rw [List.foldlM_cons, hwrite]
      exact hwrites
    rw [List.map_cons, fields, hfields]
    unfold mappedOf
    obtain ⟨i, adi, -, -, htype, hcases⟩ := hmap.cases
    rcases hcases with ⟨-, hnone, -⟩ | ⟨-, -, hsome, hsize⟩
    · rw [hnone, List.filterMap_cons_none hnone]
      rfl
    · rw [hsome, List.filterMap_cons_some hsome]
      have hsame : netValue s.eBigEndianNetOrder map.item.bDataType ab₂ at_
          = netValue s.eBigEndianNetOrder map.item.bDataType ab₁ at_ :=
        netValue_congr fun j hj hj' => hkeep₂ j (by
          rw [htype] at hj'
          omega)
      rw [hsame, show map.item.bDataType = map.bDataType from rfl, hvalue i hsome]
      rfl

/-- **The write process data** has the values of the mapped instances. -/
theorem processDataChanged_spec (h : MapsOk s.sMyWriteMappings) (abData : ℕ → UInt8) :
    ∃ abData', s.processDataChanged abData = some abData' ∧
      fields s.eBigEndianNetOrder abData' 0 s.sMyWriteMappings.items
        = (mappedOf s.sMyWriteMappings.items).map fun i => (i, s.bank i) := by
  obtain ⟨ab', n, hwrite, -, hfields⟩ :=
    @writeMaps_spec s (cells s.sMyWriteMappings.psMaps s.sMyWriteMappings.iNbrMaps.toNat) abData 0
      (by rw [MapsOk.items_eq]; exact h.valid)
      (by
        rw [MapsOk.items_eq]
        have := h.totalSize_le
        omega)
  rw [MapsOk.items_eq] at hfields
  refine ⟨ab', ?_, hfields⟩
  have hwrite : List.foldlM s.writeMap (abData, 0) _ = some (ab', n) := hwrite
  simp only [processDataChanged, PdMap.all_of_fits h.fits, hwrite, Option.bind_eq_bind,
    Option.bind_some]
  rfl

end Appd

end Start01
