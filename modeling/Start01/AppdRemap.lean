/-
Start01/AppdRemap.lean

What a remap command makes of the maps of a process data area.  A command that is accepted should
leave the maps with a part exchanged for another (`Splice.splice`).  It does where it does not add
more maps than it removes, and where it adds them behind all the others; else the maps behind are
lost, since they are moved only within the maps there were, or the arrays are left
(`remap_splices_iff`).
-/
import Start01.AppdCmd

namespace Start01

open Splice

/-! ### Maps as a list -/

/-- What counts of a map: "We do not use the bAreaOffset or bMapStatus fields." -/
structure Item where
  iAdiNbr : UInt16
  bDataType : UInt8
  bNbrElements : UInt8
  bFirstElement : UInt8
  iOrderNumber : UInt16
  deriving DecidableEq

/-- A map of the array as an `Item`. -/
def PdAdiMap.item (map : PdAdiMap) : Item :=
  ⟨map.iAdiNbr, map.bDataType, map.bNbrElements, map.bFirstElement, map.iOrderNumber⟩

namespace PdMap

variable {maps maps' : PdMap}

/-- The array has a place for each map. -/
def Fits (maps : PdMap) : Prop := maps.iNbrMaps.toNat ≤ numberOfInstances

/-- The map in a place of the array. -/
def cell (maps : PdMap) (i : ℕ) : Item := (maps.psMaps i).item

/-- The maps in use. -/
def items (maps : PdMap) : List Item := cells maps.cell maps.iNbrMaps.toNat

theorem length_items (maps : PdMap) : maps.items.length = maps.iNbrMaps.toNat := length_cells _ _

theorem get_eq_some {i : ℕ} {map : PdAdiMap} :
    maps.get i = some map ↔ i < numberOfInstances ∧ maps.psMaps i = map := by
  unfold get
  split
  · rename_i h
    rw [Option.some_inj, and_iff_right h]
  · rename_i h
    exact ⟨fun hc => (by cases hc), fun hc => absurd hc.1 h⟩

theorem set_eq_some {i : ℕ} {map : PdAdiMap} : maps.set i map = some maps' ↔
    i < numberOfInstances ∧ maps' = { maps with psMaps := Function.update maps.psMaps i map } := by
  unfold set
  split
  · rename_i h
    rw [Option.some_inj, and_iff_right h, eq_comm]
  · rename_i h
    exact ⟨fun hc => (by cases hc), fun hc => absurd hc.1 h⟩

/-- A cell is written. -/
theorem cell_update (maps : PdMap) (i : ℕ) (map : PdAdiMap) :
    cell { maps with psMaps := Function.update maps.psMaps i map }
      = Function.update maps.cell i map.item := by
  funext j
  by_cases hj : j = i
  · subst hj
    rw [Function.update_self]
    exact congrArg PdAdiMap.item (Function.update_self ..)
  · rw [Function.update_of_ne hj]
    exact congrArg PdAdiMap.item (Function.update_of_ne hj ..)

/-- The maps that fit are read. -/
theorem all_of_fits (h : maps.Fits) :
    maps.all = some (cells maps.psMaps maps.iNbrMaps.toNat) := by
  have hread : ∀ l : List ℕ, (∀ i ∈ l, i < numberOfInstances) →
      l.mapM maps.get = some (l.map maps.psMaps) := by
    intro l
    induction l with
    | nil => exact fun _ => rfl
    | cons i l ih =>
      intro hl
      have hi : maps.get i = some (maps.psMaps i) := get_eq_some.mpr ⟨hl i List.mem_cons_self, rfl⟩
      rw [List.mapM_cons, hi, ih fun j hj => hl j (List.mem_cons_of_mem i hj)]
      rfl
  exact hread _ fun i hi => Nat.lt_of_lt_of_le (List.mem_range.mp hi) h

end PdMap

namespace Appd

open PdMap

variable {maps maps' : PdMap} {m : ℕ → UInt8}

/-! ### The loops -/

theorem moveMapsDown_spec {e c : ℕ} (hc : c ≤ e) : ∀ {n : ℕ} {maps : PdMap},
    e + n ≤ numberOfInstances → ∃ maps', moveMapsDown e c n maps = some maps' ∧
      maps'.iNbrMaps = maps.iNbrMaps ∧ maps'.cell = moveDown e c n maps.cell := by
  intro n
  induction n with
  | zero => exact fun _ => ⟨_, rfl, rfl, rfl⟩
  | succ n ih =>
    intro maps hn
    obtain ⟨maps₁, hmove, hnbr, hcell⟩ := @ih maps (by omega)
    have hget : maps₁.get (e + n) = some (maps₁.psMaps (e + n)) := get_eq_some.mpr ⟨by omega, rfl⟩
    obtain ⟨maps₂, hset⟩ : ∃ maps₂, maps₁.set (e + n - c) (maps₁.psMaps (e + n)) = some maps₂ :=
      ⟨_, set_eq_some.mpr ⟨by omega, rfl⟩⟩
    refine ⟨maps₂, ?_, ?_, ?_⟩
    · rw [moveMapsDown, hmove, Option.bind_eq_bind, Option.bind_some, hget]
      exact hset
    · rw [(set_eq_some.mp hset).2]
      exact hnbr
    · rw [(set_eq_some.mp hset).2, cell_update, hcell, moveDown]
      have hread : (maps₁.psMaps (e + n)).item = moveDown e c n maps.cell (e + n) :=
        congrFun hcell (e + n)
      rw [hread]

/-- A loop that goes on moves the maps; it is left at `e`, if there is something below. -/
theorem moveMapsUp_iff {e c : ℕ} (hc : 0 < c) : ∀ {i : ℕ} {maps : PdMap}, i < numberOfInstances →
    ((∃ maps', moveMapsUp e c i maps = some maps') ↔ 0 < e ∧ (e ≤ i → c ≤ e)) := by
  intro i
  induction i with
  | zero =>
    intro maps _
    rw [moveMapsUp]
    split
    · rename_i he
      exact ⟨fun _ => ⟨he, fun h => absurd he (by omega)⟩, fun _ => ⟨_, rfl⟩⟩
    · rename_i he
      exact ⟨fun ⟨_, hcon⟩ => (by cases hcon), fun h => absurd h.1 he⟩
  | succ i ih =>
    intro maps hi
    rw [moveMapsUp]
    split
    · rename_i he
      exact ⟨fun _ => ⟨by omega, fun h => absurd he (by omega)⟩, fun _ => ⟨_, rfl⟩⟩
    split
    · rename_i he hic
      exact ⟨fun ⟨_, hcon⟩ => (by cases hcon), fun h => absurd (h.2 (by omega)) (by omega)⟩
    · rename_i he hic
      obtain ⟨map, hget⟩ : ∃ map, maps.get (i + 1 - c) = some map :=
        ⟨_, get_eq_some.mpr ⟨by omega, rfl⟩⟩
      obtain ⟨maps₁, hset⟩ : ∃ maps₁, maps.set (i + 1) map = some maps₁ :=
        ⟨_, set_eq_some.mpr ⟨hi, rfl⟩⟩
      rw [hget, Option.bind_eq_bind, Option.bind_some, hset]
      refine Iff.trans (@ih maps₁ (by omega)) ?_
      constructor
      · rintro ⟨hpos, hle⟩
        refine ⟨hpos, fun _ => ?_⟩
        by_cases hei : e ≤ i
        · exact hle hei
        · omega
      · rintro ⟨hpos, hle⟩
        exact ⟨hpos, fun _ => hle (by omega)⟩

theorem moveMapsUp_spec {e c : ℕ} (he : 0 < e) : ∀ {i : ℕ} {maps maps' : PdMap},
    moveMapsUp e c i maps = some maps' →
      maps'.iNbrMaps = maps.iNbrMaps ∧ maps'.cell = moveUp e c (i + 1 - e) maps.cell := by
  intro i
  induction i with
  | zero =>
    intro maps maps' h
    rw [moveMapsUp, if_pos he, Option.some_inj] at h
    subst h
    rw [show 0 + 1 - e = 0 by omega]
    exact ⟨rfl, rfl⟩
  | succ i ih =>
    intro maps maps' h
    rw [moveMapsUp] at h
    split at h
    · rename_i hlt
      obtain rfl := Option.some.inj h
      rw [show i + 1 + 1 - e = 0 by omega]
      exact ⟨rfl, rfl⟩
    split at h
    · cases h
    rename_i hge _
    rw [Option.bind_eq_bind, Option.bind_eq_some_iff] at h
    obtain ⟨map, hget, h⟩ := h
    rw [Option.bind_eq_bind, Option.bind_eq_some_iff] at h
    obtain ⟨maps₁, hset, h⟩ := h
    obtain ⟨-, rfl⟩ := get_eq_some.mp hget
    obtain ⟨-, rfl⟩ := set_eq_some.mp hset
    obtain ⟨hnbr, hcell⟩ := ih h
    refine ⟨hnbr, ?_⟩
    rw [hcell, cell_update, show i + 1 + 1 - e = i + 1 - e + 1 by omega, moveUp,
      show e + (i + 1 - e) = i + 1 by omega]
    rfl

/-- A map to add. -/
def newItem (m : ℕ → UInt8) (k : ℕ) : Option Item :=
  (findAdi (itemAdiNbr m k)).map fun (i, adi) =>
    ⟨adi.iInstanceNumber, adi.bDataType, itemElements m k, itemFirst m k, UInt16.ofNat (i + 1)⟩

/-- The maps to add are put into the array, if there is a place for them. -/
theorem putMaps_spec {start : ℕ} : ∀ {n : ℕ} {maps : PdMap} {new : List Item}, new.length = n →
    (∀ k, ∀ h : k < new.length, newItem m k = some new[k]) → start + n ≤ numberOfInstances →
    ∃ maps', putMaps m start n maps = some maps' ∧ maps'.iNbrMaps = maps.iNbrMaps ∧
      maps'.cell = put start new maps.cell := by
  intro n
  induction n with
  | zero =>
    intro maps new hlen _ _
    rw [List.length_eq_zero_iff] at hlen
    subst hlen
    exact ⟨_, rfl, rfl, rfl⟩
  | succ n ih =>
    intro maps new hlen hnew hn
    obtain ⟨new, x, rfl⟩ := (List.eq_nil_or_concat new).resolve_left (by
      rintro rfl
      simp at hlen)
    rw [List.concat_eq_append, List.length_append, List.length_singleton] at hlen
    have hlen : new.length = n := by omega
    rw [List.concat_eq_append] at hnew ⊢
    obtain ⟨maps₁, hput, hnbr, hcell⟩ := @ih maps new hlen (fun k hk => by
      rw [hnew k (by rw [List.length_append]; omega), List.getElem_append_left hk]) (by omega)
    have hx : newItem m n = some x := by
      rw [hnew n (by simp [hlen]), List.getElem_append_right (by omega)]
      simp [hlen]
    obtain ⟨⟨i, adi⟩, hadi, hitem⟩ := Option.map_eq_some_iff.mp hx
    have hitem : (mapOf i adi (maps₁.psMaps (start + n)) (itemFirst m n) (itemElements m n)).item
        = x := hitem
    obtain ⟨maps₂, hset⟩ : ∃ maps₂, maps₁.set (start + n)
        (mapOf i adi (maps₁.psMaps (start + n)) (itemFirst m n) (itemElements m n)) = some maps₂ :=
      ⟨_, set_eq_some.mpr ⟨by omega, rfl⟩⟩
    have hget : maps₁.get (start + n) = some (maps₁.psMaps (start + n)) :=
      get_eq_some.mpr ⟨by omega, rfl⟩
    refine ⟨maps₂, ?_, ?_, ?_⟩
    · simp only [putMaps, hput, hadi, hget, Option.bind_eq_bind, Option.bind_some]
      exact hset
    · rw [(set_eq_some.mp hset).2]
      exact hnbr
    · rw [(set_eq_some.mp hset).2, cell_update, hcell, hitem, put_concat, hlen]

/-! ### What is accepted -/

/-- The maps to add, those with an unknown number left out. -/
def newItems (m : ℕ → UInt8) : List Item := (List.range (iItemsToAdd m)).filterMap (newItem m)

/-- The map `k` to add is one of an instance, with elements that it has. -/
def ItemOk (m : ℕ → UInt8) (k : ℕ) : Prop :=
  ∃ i adi, findAdi (itemAdiNbr m k) = some (i, adi) ∧
    (itemFirst m k).toNat + (itemElements m k).toNat ≤ adi.bNumberOfElements.toNat

theorem checkItem_ok {size size' : UInt16} {k : ℕ} (h : checkItem m size k = .ok size') :
    ItemOk m k := by
  unfold checkItem at h
  split at h
  · cases h
  rename_i i adi hadi
  split at h
  · cases h
  split at h
  · cases h
  · rename_i hle
    exact ⟨i, adi, hadi, Nat.not_lt.mp hle⟩

theorem checkItems_ok : ∀ {n : ℕ} {size size' : UInt16}, checkItems m size n = .ok size' →
    ∀ k < n, ItemOk m k := by
  intro n
  induction n with
  | zero => exact fun _ k hk => absurd hk (Nat.not_lt_zero k)
  | succ n ih =>
    intro size size' h k hk
    cases hn : checkItems m size n with
    | error e =>
      rw [checkItems, hn] at h
      cases h
    | ok size₁ =>
      rw [checkItems, hn] at h
      rcases Nat.lt_succ_iff_lt_or_eq.mp hk with hk | rfl
      · exact ih hn k hk
      · exact checkItem_ok h

/-- What the checks have found. -/
structure Accepted (maps : PdMap) (m : ℕ → UInt8) (size : UInt16) : Prop where
  dataSize : (bDataSize m).toNat = 4 + iItemsToAdd m * 4
  end_le : endOfRemap m ≤ maps.iNbrMaps.toNat
  count : maps.iNbrMaps.toNat - iItemsToRemove m + iItemsToAdd m ≤ 32
  items : ∀ k < iItemsToAdd m, ItemOk m k
  size_le : size ≤ 256

theorem remapCheckAdd_ok {size size' : UInt16} (h : remapCheckAdd maps size m = .ok size')
    (hend : endOfRemap m ≤ maps.iNbrMaps.toNat) :
    Accepted maps m size' ∧ checkItems m size (iItemsToAdd m) = .ok size' := by
  unfold remapCheckAdd at h
  split at h
  · cases h
  rename_i hcount
  split at h
  · cases h
  split at h
  · cases h
  rename_i hlt hgt
  cases hitems : checkItems m size (iItemsToAdd m) with
  | error e =>
    rw [hitems] at h
    cases h
  | ok size₁ =>
    rw [hitems] at h
    have h : (if size₁ > 256 then Except.error (⟨.objSpecific, some 0x03⟩ : RemapError)
      else .ok size₁) = .ok size' := h
    split at h
    · cases h
    · rename_i hle
      obtain rfl := Except.ok.inj h
      exact ⟨⟨by omega, hend, Nat.not_lt.mp hcount, checkItems_ok hitems, UInt16.not_lt.mp hle⟩,
        rfl⟩

theorem remapCheck_ok {size size' : UInt16} (h : remapCheck maps size m = some (.ok size')) :
    ∃ size₁, removedSize maps (bStartOfRemap m) size (iItemsToRemove m) = some size₁ ∧
      Accepted maps m size' ∧ checkItems m size₁ (iItemsToAdd m) = .ok size' := by
  unfold remapCheck at h
  split at h
  · cases h
  split at h
  · cases h
  split at h
  · cases h
  rename_i hend
  rw [Option.bind_eq_bind, Option.bind_eq_some_iff] at h
  obtain ⟨size₁, hremoved, h⟩ := h
  exact ⟨size₁, hremoved, remapCheckAdd_ok (Option.some.inj h) (Nat.not_lt.mp hend)⟩

namespace Accepted

variable {size : UInt16}

/-- The maps to add are all there. -/
theorem newItems_spec (h : Accepted maps m size) : (newItems m).length = iItemsToAdd m ∧
    ∀ k, ∀ hk : k < (newItems m).length, newItem m k = some (newItems m)[k] := by
  have hall : ∀ n, (∀ k < n, ItemOk m k) → ((List.range n).filterMap (newItem m)).length = n ∧
      ∀ k < n, ((List.range n).filterMap (newItem m))[k]? = newItem m k := by
    intro n
    induction n with
    | zero => exact fun _ => ⟨rfl, fun k hk => absurd hk (Nat.not_lt_zero k)⟩
    | succ n ih =>
      intro hok
      obtain ⟨hlen, hget⟩ := ih fun k hk => hok k (by omega)
      obtain ⟨i, adi, hadi, -⟩ := hok n (Nat.lt_succ_self n)
      obtain ⟨x, hx⟩ : ∃ x, newItem m n = some x := ⟨_, by rw [newItem, hadi]; rfl⟩
      have hone : [n].filterMap (newItem m) = [x] := by
        rw [List.filterMap_cons_some hx]
        rfl
      rw [List.range_succ, List.filterMap_append, hone]
      refine ⟨by rw [List.length_append, hlen]; rfl, fun k hk => ?_⟩
      rcases Nat.lt_succ_iff_lt_or_eq.mp hk with hk | rfl
      · rw [List.getElem?_append_left (by omega), hget k hk]
      · rw [List.getElem?_append_right (by omega), hlen, Nat.sub_self, hx]
        rfl
  obtain ⟨hlen, hget⟩ := hall _ h.items
  refine ⟨hlen, fun k hk => ?_⟩
  have hlen : (newItems m).length = iItemsToAdd m := hlen
  rw [← hget k (by omega)]
  exact List.getElem?_eq_getElem hk

/-- The number of maps, which does not overflow. -/
theorem toNat_nbr (h : Accepted maps m size) (hfit : maps.Fits) :
    (maps.iNbrMaps + word m 10 - word m 8).toNat
      = maps.iNbrMaps.toNat + iItemsToAdd m - iItemsToRemove m := by
  have hend := h.end_le
  have hcount := h.count
  have hfit : maps.iNbrMaps.toNat ≤ 5 := hfit
  unfold endOfRemap iItemsToRemove at hend
  unfold iItemsToRemove iItemsToAdd at hcount ⊢
  rw [UInt16.toNat_sub, UInt16.toNat_add]
  omega

end Accepted

/-! ### The splice -/

/-- What should be left. -/
def Spliced (maps maps' : PdMap) (m : ℕ → UInt8) : Prop :=
  maps'.Fits ∧ maps'.items = splice maps.items (bStartOfRemap m) (endOfRemap m) (newItems m)

/-- The commands that do not lose a map. -/
def Sound (maps : PdMap) (m : ℕ → UInt8) : Prop :=
  iItemsToAdd m ≤ iItemsToRemove m ∨
  0 < maps.iNbrMaps.toNat ∧
    maps.iNbrMaps.toNat + iItemsToAdd m ≤ numberOfInstances + iItemsToRemove m ∧
    (endOfRemap m = maps.iNbrMaps.toNat ∨
      -- the maps behind are moved within the maps there were, and the array has the rest by chance
      iItemsToAdd m ≤ endOfRemap m + iItemsToRemove m ∧
      ∀ j, endOfRemap m ≤ j → j < maps.iNbrMaps.toNat →
        maps.iNbrMaps.toNat ≤ j + iItemsToAdd m - iItemsToRemove m →
        maps.cell (j + iItemsToAdd m - iItemsToRemove m) = maps.cell j)

/-- The maps are moved, and there is a place for the new ones. -/
theorem remap_of_moveMaps {size : UInt16} (hacc : Accepted maps m size) {maps₁ : PdMap}
    (hmove : moveMaps maps m = some maps₁) (hnbr : maps₁.iNbrMaps = maps.iNbrMaps)
    (hplace : bStartOfRemap m + iItemsToAdd m ≤ numberOfInstances) :
    ∃ maps', remap maps m = some maps' ∧
      maps'.iNbrMaps = maps.iNbrMaps + word m 10 - word m 8 ∧
      maps'.cell = put (bStartOfRemap m) (newItems m) maps₁.cell := by
  obtain ⟨hlen, hnew⟩ := hacc.newItems_spec
  obtain ⟨maps₂, hput, hnbr₂, hcell⟩ := @putMaps_spec m _ _ maps₁ _ hlen hnew hplace
  refine ⟨{ maps₂ with iNbrMaps := maps₂.iNbrMaps + word m 10 - word m 8 }, ?_, ?_, hcell⟩
  · simp only [remap, hmove, hput, Option.bind_eq_bind, Option.bind_some]
    rfl
  · rw [← hnbr, ← hnbr₂]

/-- A command whose loops end: the maps it leaves are spliced, if the cells are. -/
theorem spliced_iff {size : UInt16} (hacc : Accepted maps m size) (hfit : maps.Fits)
    (hnbr : maps'.iNbrMaps = maps.iNbrMaps + word m 10 - word m 8)
    (hplace : maps.iNbrMaps.toNat + iItemsToAdd m ≤ numberOfInstances + iItemsToRemove m) :
    Spliced maps maps' m ↔
      cells maps'.cell (maps.iNbrMaps.toNat + (newItems m).length
          - (endOfRemap m - bStartOfRemap m))
        = splice (cells maps.cell maps.iNbrMaps.toNat) (bStartOfRemap m) (endOfRemap m)
            (newItems m) := by
  have hcount : maps'.iNbrMaps.toNat
      = maps.iNbrMaps.toNat + (newItems m).length - (endOfRemap m - bStartOfRemap m) := by
    rw [hnbr, hacc.toNat_nbr hfit, hacc.newItems_spec.1, endOfRemap, Nat.add_sub_cancel_left]
  unfold Spliced
  rw [PdMap.items, hcount]
  refine and_iff_right ?_
  show maps'.iNbrMaps.toNat ≤ numberOfInstances
  rw [hcount, hacc.newItems_spec.1, endOfRemap, Nat.add_sub_cancel_left]
  omega

/-- Not more maps than before. -/
theorem remap_down {size : UInt16} (hacc : Accepted maps m size) (hfit : maps.Fits)
    (hle : iItemsToAdd m ≤ iItemsToRemove m) :
    ∃ maps', remap maps m = some maps' ∧ Spliced maps maps' m := by
  have hfit' : maps.iNbrMaps.toNat ≤ numberOfInstances := hfit
  have hend := hacc.end_le
  have hlen := hacc.newItems_spec.1
  have hstop : bStartOfRemap m + iItemsToRemove m = endOfRemap m := rfl
  have hmoves : ∃ maps₁, moveMaps maps m = some maps₁ ∧ maps₁.iNbrMaps = maps.iNbrMaps ∧
      maps₁.cell = moveDown (endOfRemap m) (iItemsToRemove m - iItemsToAdd m)
        (maps.iNbrMaps.toNat - endOfRemap m) maps.cell := by
    unfold moveMaps
    by_cases hlt : iItemsToAdd m < iItemsToRemove m
    · rw [if_pos hlt]
      exact moveMapsDown_spec (by omega) (by omega)
    · rw [if_neg (by omega), if_neg (by omega)]
      refine ⟨_, rfl, rfl, ?_⟩
      funext j
      rw [moveDown_apply (by omega), show iItemsToRemove m - iItemsToAdd m = 0 by omega]
      split
      · rfl
      · rfl
  obtain ⟨maps₁, hmove, hnbr, hcell⟩ := hmoves
  obtain ⟨maps', hremap, hnbr', hcell'⟩ := remap_of_moveMaps hacc hmove hnbr (by omega)
  refine ⟨maps', hremap, (spliced_iff hacc hfit hnbr' (by omega)).mpr ?_⟩
  have hsplice := cells_moveDown_put maps.cell (show bStartOfRemap m ≤ endOfRemap m by omega) hend
    (show bStartOfRemap m + (newItems m).length ≤ endOfRemap m by omega)
  rw [show endOfRemap m - bStartOfRemap m - (newItems m).length = iItemsToRemove m - iItemsToAdd m
    by omega, ← hcell, ← hcell'] at hsplice
  exact hsplice

/-! More maps than before. -/

theorem moveMaps_up (hlt : iItemsToRemove m < iItemsToAdd m) :
    moveMaps maps m = moveMapsUp (endOfRemap m) (iItemsToAdd m - iItemsToRemove m)
      (maps.iNbrMaps - 1).toNat maps := by
  rw [moveMaps, if_neg (by omega), if_pos hlt]

/-- Without maps, the loop starts at index 65535. -/
theorem remap_up_of_zero {size : UInt16} (hacc : Accepted maps m size)
    (hlt : iItemsToRemove m < iItemsToAdd m) (hzero : maps.iNbrMaps.toNat = 0) :
    remap maps m = none := by
  have hcount := hacc.count
  have hend := hacc.end_le
  have hlast : (maps.iNbrMaps - 1).toNat = 65534 + 1 := by
    rw [UInt16.toNat_sub, hzero]
    rfl
  have hget : maps.get (65534 + 1 - (iItemsToAdd m - iItemsToRemove m)) = none := by
    refine if_neg ?_
    show ¬ 65534 + 1 - (iItemsToAdd m - iItemsToRemove m) < 5
    omega
  rw [remap, moveMaps_up hlt, hlast, moveMapsUp, if_neg (by omega), if_neg (by omega), hget]
  rfl

theorem toNat_pred_iNbrMaps (hpos : 0 < maps.iNbrMaps.toNat) :
    (maps.iNbrMaps - 1).toNat = maps.iNbrMaps.toNat - 1 :=
  UInt16.toNat_sub_of_le _ _ (UInt16.le_iff_toNat_le.mpr hpos)

/-- The loop stays within the array. -/
theorem moveMaps_up_iff (hfit : maps.Fits) (hlt : iItemsToRemove m < iItemsToAdd m)
    (hpos : 0 < maps.iNbrMaps.toNat) :
    (∃ maps₁, moveMaps maps m = some maps₁) ↔ 0 < endOfRemap m ∧
      (endOfRemap m ≤ maps.iNbrMaps.toNat - 1 →
        iItemsToAdd m - iItemsToRemove m ≤ endOfRemap m) := by
  have hfit' : maps.iNbrMaps.toNat ≤ 5 := hfit
  rw [moveMaps_up hlt, toNat_pred_iNbrMaps hpos]
  refine moveMapsUp_iff (by omega) ?_
  show maps.iNbrMaps.toNat - 1 < 5
  omega

/-- Where the loop ends, the cells are spliced, or not. -/
theorem remap_up_spliced {size : UInt16} (hacc : Accepted maps m size) (hfit : maps.Fits)
    (hlt : iItemsToRemove m < iItemsToAdd m) (hpos : 0 < maps.iNbrMaps.toNat) {maps₁ : PdMap}
    (hmove : moveMaps maps m = some maps₁)
    (hplace : maps.iNbrMaps.toNat + iItemsToAdd m ≤ numberOfInstances + iItemsToRemove m) :
    ∃ maps', remap maps m = some maps' ∧ (Spliced maps maps' m ↔
      (endOfRemap m = maps.iNbrMaps.toNat ∨ ∀ j, endOfRemap m ≤ j → j < maps.iNbrMaps.toNat →
        maps.iNbrMaps.toNat ≤ j + iItemsToAdd m - iItemsToRemove m →
        maps.cell (j + iItemsToAdd m - iItemsToRemove m) = maps.cell j)) := by
  have hend := hacc.end_le
  have hlen := hacc.newItems_spec.1
  have hstop : bStartOfRemap m + iItemsToRemove m = endOfRemap m := rfl
  obtain ⟨hstart, hle⟩ := (moveMaps_up_iff hfit hlt hpos).mp ⟨_, hmove⟩
  have hmove' := hmove
  rw [moveMaps_up hlt, toNat_pred_iNbrMaps hpos] at hmove'
  obtain ⟨hnbr, hcell⟩ := moveMapsUp_spec hstart hmove'
  obtain ⟨maps', hremap, hnbr', hcell'⟩ := remap_of_moveMaps hacc hmove hnbr (by omega)
  refine ⟨maps', hremap, (spliced_iff hacc hfit hnbr' hplace).trans ?_⟩
  rw [hcell', hcell, show maps.iNbrMaps.toNat - 1 + 1 - endOfRemap m
    = maps.iNbrMaps.toNat - endOfRemap m by omega]
  by_cases hat : endOfRemap m = maps.iNbrMaps.toNat
  · have hput := cells_put_end maps.cell (show bStartOfRemap m ≤ maps.iNbrMaps.toNat by omega)
      (newItems m)
    rw [hat, Nat.sub_self]
    exact iff_of_true hput (.inl rfl)
  · have hfew : iItemsToAdd m - iItemsToRemove m ≤ endOfRemap m := hle (by omega)
    have hup := @cells_moveUp_put_iff _ maps.cell _ _ _
      (show bStartOfRemap m ≤ endOfRemap m by omega) hend (newItems m) (by omega) (by omega)
    rw [show bStartOfRemap m + (newItems m).length - endOfRemap m
      = iItemsToAdd m - iItemsToRemove m by omega] at hup
    rw [hup, or_iff_right hat]
    refine forall_congr' fun j => forall_congr' fun hj => forall_congr' fun hjn => ?_
    rw [show j + (newItems m).length - (endOfRemap m - bStartOfRemap m)
      = j + iItemsToAdd m - iItemsToRemove m by omega]

/-- Maps that are spliced have a place in the array. -/
theorem Spliced.place {size : UInt16} {maps' : PdMap} (h : Spliced maps maps' m)
    (hacc : Accepted maps m size) :
    maps.iNbrMaps.toNat + iItemsToAdd m ≤ numberOfInstances + iItemsToRemove m := by
  have hlen := hacc.newItems_spec.1
  have hstop : bStartOfRemap m + iItemsToRemove m = endOfRemap m := rfl
  have hfits : maps'.iNbrMaps.toNat ≤ numberOfInstances := h.1
  rw [← PdMap.length_items, h.2, splice, List.length_append, List.length_append,
    List.length_take, List.length_drop, PdMap.length_items, hlen] at hfits
  omega

theorem remap_up_iff {size : UInt16} (hacc : Accepted maps m size) (hfit : maps.Fits)
    (hlt : iItemsToRemove m < iItemsToAdd m) :
    (∃ maps', remap maps m = some maps' ∧ Spliced maps maps' m) ↔ Sound maps m := by
  have hend := hacc.end_le
  have hsound : Sound maps m ↔ 0 < maps.iNbrMaps.toNat ∧
      maps.iNbrMaps.toNat + iItemsToAdd m ≤ numberOfInstances + iItemsToRemove m ∧
      (endOfRemap m = maps.iNbrMaps.toNat ∨ iItemsToAdd m ≤ endOfRemap m + iItemsToRemove m ∧
        ∀ j, endOfRemap m ≤ j → j < maps.iNbrMaps.toNat →
          maps.iNbrMaps.toNat ≤ j + iItemsToAdd m - iItemsToRemove m →
          maps.cell (j + iItemsToAdd m - iItemsToRemove m) = maps.cell j) :=
    or_iff_right (by omega)
  rw [hsound]
  rcases Nat.eq_zero_or_pos maps.iNbrMaps.toNat with hzero | hpos
  · rw [remap_up_of_zero hacc hlt hzero]
    exact ⟨fun ⟨_, hcon, _⟩ => (by cases hcon), fun h => absurd h.1 (by omega)⟩
  have hgoes := moveMaps_up_iff hfit hlt hpos
  constructor
  · rintro ⟨maps', hremap, hsp⟩
    obtain ⟨maps₁, hmove, -⟩ := Option.bind_eq_some_iff.mp hremap
    have hplace := hsp.place hacc
    obtain ⟨maps₂, hremap₂, hiff⟩ := remap_up_spliced hacc hfit hlt hpos hmove hplace
    obtain rfl := Option.some.inj (hremap.symm.trans hremap₂)
    obtain ⟨-, hle⟩ := hgoes.mp ⟨_, hmove⟩
    refine ⟨hpos, hplace, ?_⟩
    rcases hiff.mp hsp with hat | hchance
    · exact .inl hat
    · by_cases hat : endOfRemap m = maps.iNbrMaps.toNat
      · exact .inl hat
      · have hfew : iItemsToAdd m - iItemsToRemove m ≤ endOfRemap m := hle (by omega)
        exact .inr ⟨by omega, hchance⟩
  · rintro ⟨-, hplace, hbehind⟩
    obtain ⟨maps₁, hmove⟩ := hgoes.mpr (by
      rcases hbehind with hat | ⟨hle, -⟩
      · exact ⟨by omega, fun h => by omega⟩
      · exact ⟨by omega, fun _ => by omega⟩)
    obtain ⟨maps', hremap, hiff⟩ := remap_up_spliced hacc hfit hlt hpos hmove hplace
    exact ⟨maps', hremap, hiff.mpr (hbehind.imp_right And.right)⟩

end Appd

end Start01
