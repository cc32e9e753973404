/-
Start01/AppdRefine.lean

The application data object is a drive (`AppdDrive.lean`).  Each command is answered once, in the
message that brought it, and as the drive answers it (`processCmdMsg_spec`); so each run from the
reset on is a run of the drive (`appd_refines_drive`).  Whatever the network does, it finds every
value within its limits (`appd_in_range`).
-/
import Start01.AppdDrive

namespace Start01

open Scatter Splice

namespace Appd

open PdMap

variable {s s' : Appd} {maps maps' : PdMap} {m r : ℕ → UInt8} {size size' : UInt16}

/-! ### Remap commands -/

/-- Behind the error code there may be more. -/
theorem RemapError.respond_refuses (e : RemapError) (m : ℕ → UInt8) : Refuses m (e.respond m) := by
  unfold RemapError.respond
  split
  · exact refuses m 1 e.eErr
  · obtain ⟨⟨hsame, hcmd⟩, herror⟩ := refuses m 2 e.eErr
    refine ⟨⟨fun j hj h4 h5 => ?_, ?_⟩, ?_⟩
    · rw [Function.update_of_ne (by omega), hsame j hj h4 h5]
    · rw [Function.update_of_ne (by decide)]
      exact hcmd
    · rw [isError, bCmd, Function.update_of_ne (by decide)]
      exact herror

/-- The word in an answer. -/
theorem word_respond (m : ℕ → UInt8) (w : UInt16) : word (respond m (wordData w)) 8 = w := by
  have h0 : respond m (wordData w) 8 = w.toUInt8 := rfl
  have h1 : respond m (wordData w) 9 = (w >>> 8).toUInt8 := rfl
  rw [word, h0, h1, UInt16.or_comm]
  exact join_bytes w

/-- One of the two areas. -/
theorem area_spec (h : MapsOk maps) (hsize : size.toNat = totalSize maps.items)
    (hacc : Acceptable maps.items m) (hsound : Sound maps m) :
    ∃ size' maps', remapCheck maps size m = some (.ok size') ∧ remap maps m = some maps' ∧
      MapsOk maps' ∧ maps'.items = remapped maps.items m ∧
      size'.toNat = totalSize (remapped maps.items m) := by
  obtain ⟨size', hcheck, hsize'⟩ := remapCheck_of_acceptable h hsize hacc
  have hspliced : ∃ maps', remap maps m = some maps' ∧ Spliced maps maps' m := by
    obtain ⟨-, -, haccepted, -⟩ := remapCheck_ok hcheck
    rcases Nat.lt_or_ge (iItemsToRemove m) (iItemsToAdd m) with hlt | hle
    · exact (remap_up_iff haccepted h.fits hlt).mpr hsound
    · exact remap_down haccepted h.fits hle
  obtain ⟨maps', hremap, hsp⟩ := hspliced
  obtain ⟨hmaps, hitems⟩ := h.of_spliced hacc hsp
  exact ⟨size', maps', hcheck, hremap, hmaps, hitems, hsize'⟩

/-- A command is answered as the drive answers it. -/
structure Answers (s : Appd) (m : ℕ → UInt8) (s' : Appd) (r : ℕ → UInt8) : Prop where
  good : Good s'
  answer : AnswerTo m r
  drive : s'.drive = (s.drive.command m).1
  event : s.observe m r = (s.drive.command m).2

theorem writeArea_spec (h : Good s) (hok : s.CommandOk m) (hobj : iInstance m = 0)
    (hcmd : cmdBits m = 0x13) :
    ∃ s' r, s.remapProcessDataCommand m = some (s', r) ∧ Answers s m s' r := by
  have hobserve : ∀ r, s.observe m r
      = [if isError r then .refused else .mapped (word r 8).toNat] := by
    intro r
    rw [observe, if_pos hobj, if_pos (.inl hcmd)]
  have hwrite : s.drive.write = s.sMyWriteMappings.items := rfl
  unfold remapProcessDataCommand
  rw [if_pos hcmd]
  by_cases hacc : Acceptable s.drive.write m
  · obtain ⟨size', maps', hcheck, hremap, hmaps, hitems, hsize⟩ :=
      area_spec h.write h.writeSize hacc ((hok.2 hobj).1 hcmd hacc)
    have hdrive : s.drive.command m = ({ s.drive with write := remapped s.drive.write m },
        [.mapped (totalSize (remapped s.drive.write m))]) := by
      rw [Drive.command, if_pos hobj, if_pos hcmd, if_pos hacc]
    have hgrants := respond_grants m (wordData size')
    rw [hcheck, Option.bind_eq_bind, Option.bind_some]
    dsimp only
    rw [hremap]
    refine ⟨_, _, rfl, ⟨h.read, hmaps, h.readSize, ?_⟩, hgrants.answer, ?_, ?_⟩
    · rw [hsize, hitems]
    · rw [hdrive, hwrite, ← hitems]
      rfl
    · rw [hobserve, hdrive, hgrants.isError hok.1, word_respond, hsize, hwrite]
      rfl
  · obtain ⟨e, hcheck⟩ := remapCheck_of_not_acceptable h.write h.writeSize hacc
    have hdrive : s.drive.command m = (s.drive, [.refused]) := by
      rw [Drive.command, if_pos hobj, if_pos hcmd, if_neg hacc]
    have hrefuses := RemapError.respond_refuses e m
    rw [hcheck]
    refine ⟨_, _, rfl, h, hrefuses.answer, by rw [hdrive], ?_⟩
    rw [hobserve, hdrive, hrefuses.error]
    rfl

theorem readArea_spec (h : Good s) (hok : s.CommandOk m) (hobj : iInstance m = 0)
    (hcmd : cmdBits m = 0x14) :
    ∃ s' r, s.remapProcessDataCommand m = some (s', r) ∧ Answers s m s' r := by
  have hobserve : ∀ r, s.observe m r
      = [if isError r then .refused else .mapped (word r 8).toNat] := by
    intro r
    rw [observe, if_pos hobj, if_pos (.inr hcmd)]
  have hread : s.drive.read = s.sMyReadMappings.items := rfl
  have hne : cmdBits m ≠ 0x13 := by
    rw [hcmd]
    decide
  unfold remapProcessDataCommand
  rw [if_neg hne]
  by_cases hacc : Acceptable s.drive.read m
  · obtain ⟨size', maps', hcheck, hremap, hmaps, hitems, hsize⟩ :=
      area_spec h.read h.readSize hacc ((hok.2 hobj).2 hcmd hacc)
    have hdrive : s.drive.command m = ({ s.drive with read := remapped s.drive.read m },
        [.mapped (totalSize (remapped s.drive.read m))]) := by
      rw [Drive.command, if_pos hobj, if_neg hne, if_pos hcmd, if_pos hacc]
    have hgrants := respond_grants m (wordData size')
    rw [hcheck, Option.bind_eq_bind, Option.bind_some]
    dsimp only
    rw [hremap]
    refine ⟨_, _, rfl, ⟨hmaps, h.write, ?_, h.writeSize⟩, hgrants.answer, ?_, ?_⟩
    · rw [hsize, hitems]
    · rw [hdrive, hread, ← hitems]
      rfl
    · rw [hobserve, hdrive, hgrants.isError hok.1, word_respond, hsize, hread]
      rfl
  · obtain ⟨e, hcheck⟩ := remapCheck_of_not_acceptable h.read h.readSize hacc
    have hdrive : s.drive.command m = (s.drive, [.refused]) := by
      rw [Drive.command, if_pos hobj, if_neg hne, if_pos hcmd, if_neg hacc]
    have hrefuses := RemapError.respond_refuses e m
    rw [hcheck]
    refine ⟨_, _, rfl, h, hrefuses.answer, by rw [hdrive], ?_⟩
    rw [hobserve, hdrive, hrefuses.error]
    rfl

/-! ### Commands to the object -/

/-- A command that the drive does not know changes nothing. -/
theorem answers_of_quiet (h : Good s) (hans : AnswerTo m r)
    (hdrive : s.drive.command m = (s.drive, [])) (hobserve : s.observe m r = []) :
    Answers s m s r := ⟨h, hans, by rw [hdrive], by rw [hdrive, hobserve]⟩

theorem objectAttr_answer (pcName : String) (bRevision : UInt8) (n k : UInt16) (m : ℕ → UInt8) :
    AnswerTo m (objectAttr pcName bRevision n k m) := by
  unfold objectAttr
  split
  all_goals first
    | exact (respond_grants m _).answer
    | exact (refuses m 1 _).answer

/-- Each order number has an instance. -/
theorem instByOrder_answer (m : ℕ → UInt8) : AnswerTo m (instByOrder m) := by
  unfold instByOrder
  dsimp only
  split
  · exact (refuses m 1 _).answer
  · rename_i horder
    have hlen : asInstance.length = numberOfInstances := rfl
    rw [List.getElem?_eq_getElem (by omega)]
    exact (respond_grants m _).answer

theorem objectCommand_spec (h : Good s) (hok : s.CommandOk m) (hobj : iInstance m = 0) :
    ∃ s' r, s.objectCommand m = some (s', r) ∧ Answers s m s' r := by
  have hquiet : ∀ {r}, cmdBits m ≠ 0x13 → cmdBits m ≠ 0x14 → AnswerTo m r → Answers s m s r := by
    intro r h13 h14 hans
    refine answers_of_quiet h hans ?_ ?_
    · rw [Drive.command, if_pos hobj, if_neg h13, if_neg h14]
    · rw [observe, if_pos hobj, if_neg (not_or.mpr ⟨h13, h14⟩)]
  have hne : ∀ {k : ℕ} {c : UInt8}, (cmdBits m).toNat = k → c.toNat ≠ k → cmdBits m ≠ c := by
    intro k c hk hc heq
    exact hc (heq ▸ hk)
  unfold objectCommand
  split
  · rename_i hcmd
    exact ⟨_, _, rfl, hquiet (hne hcmd (by decide)) (hne hcmd (by decide))
      (objectAttr_answer _ _ _ _ m)⟩
  · rename_i hcmd
    exact ⟨_, _, rfl, hquiet (hne hcmd (by decide)) (hne hcmd (by decide)) (instByOrder_answer m)⟩
  · rename_i hcmd
    exact writeArea_spec h hok hobj (UInt8.toNat_inj.mp hcmd)
  · rename_i hcmd
    exact readArea_spec h hok hobj (UInt8.toNat_inj.mp hcmd)
  · rename_i hcmd
    split
    · exact ⟨_, _, rfl, hquiet (hne hcmd (by decide)) (hne hcmd (by decide)) (refuses m 1 _).answer⟩
    · exact ⟨_, _, rfl, hquiet (hne hcmd (by decide)) (hne hcmd (by decide))
        (respond_grants m _).answer⟩
  · have h13 : (cmdBits m).toNat ≠ 0x13 := by assumption
    have h14 : (cmdBits m).toNat ≠ 0x14 := by assumption
    exact ⟨_, _, rfl, hquiet (fun hc => h13 (congrArg UInt8.toNat hc))
      (fun hc => h14 (congrArg UInt8.toNat hc)) (refuses m 1 _).answer⟩

/-! ### Commands to an instance -/

theorem good_of_same (h : Good s) (hs : Same s s') : Good s' := by
  rw [hs]
  exact ⟨h.read, h.write, h.readSize, h.writeSize⟩

theorem drive_of_same (hs : Same s s') : s'.drive = { s.drive with bank := s'.bank } := by
  have hread : s'.sMyReadMappings = s.sMyReadMappings := by rw [hs]
  have hwrite : s'.sMyWriteMappings = s.sMyWriteMappings := by rw [hs]
  rw [drive, hread, hwrite, hs.order]
  rfl

/-- The value of an instance is asked for. -/
theorem getValue_spec (h : Good s) (hm : isError m = false) (hinst : iInstance m ≠ 0) {i : ℕ}
    {adi : AdiInstance} (hadi : findAdi (iInstance m) = some (i, adi)) (hcmd : cmdBits m = 0x01)
    (h5 : bCmdExt0 m = 5) : Answers s m s (s.getAttr i adi m) := by
  obtain ⟨hans, hget⟩ := getAttr_spec (findAdi_spec hadi) s m
  obtain ⟨hgrants, hvalue⟩ := hget h5
  have hdrive : s.drive.command m = (s.drive, [.value i (s.drive.bank i)]) := by
    rw [Drive.command, if_neg hinst, hadi]
    exact if_pos ⟨h5, hcmd⟩
  have hobserve : s.observe m (s.getAttr i adi m) = [.value i (s.bank i)] := by
    rw [observe, if_neg hinst, hadi]
    dsimp only
    rw [if_pos ⟨h5, hcmd⟩, hgrants.isError hm, hvalue]
    rfl
  refine ⟨h, hans, by rw [hdrive], ?_⟩
  rw [hobserve, hdrive]
  rfl

/-- A value is offered to an instance. -/
theorem setValue_spec (h : Good s) (hm : isError m = false) (hinst : iInstance m ≠ 0) {i : ℕ}
    {adi : AdiInstance} (hadi : findAdi (iInstance m) = some (i, adi)) (hcmd : cmdBits m = 0x02)
    (h5 : bCmdExt0 m = 5) : ∃ s' r, s.setAttr i adi m = (s', r) ∧ Answers s m s' r := by
  classical
  obtain ⟨s', r, hset, hsame, -, hno, hyes⟩ := setAttr_spec (findAdi_spec hadi) s m
  have hne : ¬ (bCmdExt0 m = 5 ∧ cmdBits m = 0x01) := by
    rw [hcmd]
    exact fun hc => absurd hc.2 (by decide)
  have hdrive : s.drive.command m =
      if Settable adi m ∧ limits.Takes (i, netValue s.eBigEndianNetOrder adi.bDataType m 8) then
        ({ s.drive with
            bank := Function.update s.bank i (netValue s.eBigEndianNetOrder adi.bDataType m 8) },
          [.taken i (netValue s.eBigEndianNetOrder adi.bDataType m 8)])
      else (s.drive, [.refused]) := by
    rw [Drive.command, if_neg hinst, hadi]
    dsimp only
    rw [if_neg hne, if_pos ⟨h5, hcmd⟩]
    rfl
  have hobserve : s.observe m r = [if isError r then .refused
      else .taken i (netValue s.eBigEndianNetOrder adi.bDataType m 8)] := by
    rw [observe, if_neg hinst, hadi]
    dsimp only
    rw [if_neg hne, if_pos ⟨h5, hcmd⟩]
  have hrefused : Refuses m r → s'.bank = s.bank →
      ¬ (Settable adi m ∧ limits.Takes (i, netValue s.eBigEndianNetOrder adi.bDataType m 8)) →
      Answers s m s' r := by
    intro hrefuses hbank hnot
    refine ⟨good_of_same h hsame, hrefuses.answer, ?_, ?_⟩
    · rw [hdrive, if_neg hnot, drive_of_same hsame, hbank]
      rfl
    · rw [hobserve, hdrive, if_neg hnot, hrefuses.error]
      rfl
  refine ⟨s', r, hset, ?_⟩
  by_cases hs : Settable adi m
  · obtain ⟨hbank, hanswer⟩ := hyes h5 hs
    by_cases htakes : limits.Takes (i, netValue s.eBigEndianNetOrder adi.bDataType m 8)
    · rw [if_pos htakes] at hanswer
      rw [Bank.offer_of_takes htakes] at hbank
      refine ⟨good_of_same h hsame, hanswer.answer, ?_, ?_⟩
      · rw [hdrive, if_pos ⟨hs, htakes⟩, drive_of_same hsame, hbank]
      · rw [hdrive, if_pos ⟨hs, htakes⟩, hobserve, hanswer.isError hm]
        rfl
    · rw [if_neg htakes] at hanswer
      rw [Bank.offer_of_not htakes] at hbank
      exact hrefused hanswer hbank fun hc => htakes hc.2
  · obtain ⟨rfl, hrefuses⟩ := hno h5 hs
    exact hrefused hrefuses rfl fun hc => hs hc.1

theorem instanceCommand_spec (h : Good s) (hm : isError m = false) (hinst : iInstance m ≠ 0) :
    ∃ s' r, s.instanceCommand m = (s', r) ∧ Answers s m s' r := by
  cases hadi : findAdi (iInstance m) with
  | none =>
    refine ⟨s, setMsgErrorResponse m 1 .unsupInst, ?_,
      answers_of_quiet h (refuses m 1 _).answer ?_ ?_⟩
    · rw [instanceCommand, hadi]
    · rw [Drive.command, if_neg hinst, hadi]
    · rw [observe, if_neg hinst, hadi]
  | some p =>
    obtain ⟨i, adi⟩ := p
    have hi := findAdi_spec hadi
    have hquiet : ∀ {r}, ¬ (bCmdExt0 m = 5 ∧ cmdBits m = 0x01) →
        ¬ (bCmdExt0 m = 5 ∧ cmdBits m = 0x02) → AnswerTo m r → Answers s m s r := by
      intro r hget hset hans
      refine answers_of_quiet h hans ?_ ?_
      · rw [Drive.command, if_neg hinst, hadi]
        dsimp only
        rw [if_neg hget, if_neg hset]
      · rw [observe, if_neg hinst, hadi]
        dsimp only
        rw [if_neg hget, if_neg hset]
    have hne : ∀ {k : ℕ} {c : UInt8}, (cmdBits m).toNat = k → c.toNat ≠ k →
        ¬ (bCmdExt0 m = 5 ∧ cmdBits m = c) := by
      intro k c hk hc heq
      exact hc (heq.2 ▸ hk)
    unfold instanceCommand
    rw [hadi]
    dsimp only
    split
    · rename_i hcmd
      refine ⟨_, _, rfl, ?_⟩
      by_cases h5 : bCmdExt0 m = 5
      · exact getValue_spec h hm hinst hadi (UInt8.toNat_inj.mp hcmd) h5
      · exact hquiet (fun hc => h5 hc.1) (fun hc => h5 hc.1) (getAttr_spec hi s m).1
    · rename_i hcmd
      obtain ⟨r, hr, hrefuses⟩ := indexedAttr_spec hi s m
      exact ⟨s, r, hr, hquiet (hne hcmd (by decide)) (hne hcmd (by decide)) hrefuses.answer⟩
    · rename_i hcmd
      obtain ⟨r, hr, hrefuses⟩ := indexedAttr_spec hi s m
      exact ⟨s, r, hr, hquiet (hne hcmd (by decide)) (hne hcmd (by decide)) hrefuses.answer⟩
    · rename_i hcmd
      by_cases h5 : bCmdExt0 m = 5
      · exact setValue_spec h hm hinst hadi (UInt8.toNat_inj.mp hcmd) h5
      · obtain ⟨s', r, hset, -, hother, -⟩ := setAttr_spec hi s m
        obtain ⟨rfl, hrefuses⟩ := hother h5
        exact ⟨_, r, hset, hquiet (fun hc => h5 hc.1) (fun hc => h5 hc.1) hrefuses.answer⟩
    · rename_i hcmd
      exact ⟨_, _, rfl, hquiet (hne hcmd (by decide)) (hne hcmd (by decide))
        (respond_grants m _).answer⟩
    · have h1 : (cmdBits m).toNat ≠ 1 := by assumption
      have h2 : (cmdBits m).toNat ≠ 2 := by assumption
      exact ⟨_, _, rfl, hquiet (fun hc => h1 (congrArg UInt8.toNat hc.2))
        (fun hc => h2 (congrArg UInt8.toNat hc.2)) (refuses m 1 _).answer⟩

/-- **Commands.**  A command is answered, as the drive answers it. -/
theorem processCmdMsg_spec (h : Good s) (hok : s.CommandOk m) :
    ∃ s' r, s.processCmdMsg m = some (s', r) ∧ Answers s m s' r := by
  unfold processCmdMsg
  split
  · rename_i hobj
    exact objectCommand_spec h hok hobj
  · rename_i hinst
    obtain ⟨s', r, hcmd, hans⟩ := instanceCommand_spec h hok.1 hinst
    exact ⟨s', r, congrArg some hcmd, hans⟩

/-! ### Runs -/

/-- One step is one of the drive. -/
theorem step_spec {op : AppdOp} (h : Good s) (hok : op.Ok s) :
    ∃ s', s.step op = some (s', (s.drive.step op).2) ∧ Good s' ∧
      s'.drive = (s.drive.step op).1 := by
  cases op with
  | command m =>
    obtain ⟨s', r, hcmd, hans⟩ := processCmdMsg_spec h hok
    refine ⟨s', ?_, hans.good, hans.drive⟩
    rw [step, hcmd]
    exact congrArg (fun o => some (s', o)) hans.event
  | newReadProcessData abData =>
    obtain ⟨s', hread, hsame, hbank⟩ := newReadProcessData_spec h.read abData
    refine ⟨s', ?_, good_of_same h hsame, ?_⟩
    · rw [step, hread]
      rfl
    · rw [drive_of_same hsame, hbank]
      rfl
  | processDataChanged abData =>
    obtain ⟨data, hwrite, hfields⟩ := processDataChanged_spec h.write abData
    refine ⟨s, ?_, h, rfl⟩
    rw [step, hwrite]
    exact congrArg (fun l => some (s, [DriveEvent.sent l])) hfields
  | setNetworkByteOrder eFormat =>
    exact ⟨_, rfl, ⟨h.read, h.write, h.readSize, h.writeSize⟩, rfl⟩

end Appd

/-- The drive after a reset: the speed is sent, the reference and the direction are received. -/
def Drive.initial : Drive where
  bank i := [0, 25, 0, 1, 4].getD i 0
  read := [⟨3, 5, 1, 0, 3⟩, ⟨4, 0, 1, 0, 4⟩]
  write := [⟨1, 5, 1, 0, 1⟩]
  eFormat := 1

namespace Appd

open PdMap

variable {s s' : Appd}

theorem bank_boot : boot.bank = Drive.initial.bank := by
  funext i
  match i with
  | 0 | 1 | 2 | 3 | 4 => decide
  | i + 5 => rfl

/-- What is mapped after a reset. -/
theorem boot_spec (h : boot.mapAdiToPd = some s) : Good s ∧ s.drive = Drive.initial := by
  have hread := Run.read_run (fun s => s.sMyReadMappings.items) h
    (v := Drive.initial.read) (by decide)
  have hwrite := Run.read_run (fun s => s.sMyWriteMappings.items) h
    (v := Drive.initial.write) (by decide)
  have hbank := Run.read_run (fun s => s.pxValue) h (v := boot.pxValue) rfl
  have horder := Run.read_run (fun s => s.eBigEndianNetOrder) h (v := 1) rfl
  have hreadSize := Run.read_run (fun s => s.iReadSize) h (v := 3) rfl
  have hwriteSize := Run.read_run (fun s => s.iWriteSize) h (v := 2) rfl
  have hreadLen : s.sMyReadMappings.iNbrMaps.toNat = 2 := by
    rw [← length_items, hread]
    rfl
  have hwriteLen : s.sMyWriteMappings.iNbrMaps.toNat = 1 := by
    rw [← length_items, hwrite]
    rfl
  have hspeed : Item.Valid ⟨1, 5, 1, 0, 1⟩ := ⟨0, _, rfl, rfl, by decide⟩
  have href : Item.Valid ⟨3, 5, 1, 0, 3⟩ := ⟨2, _, rfl, rfl, by decide⟩
  have hdirection : Item.Valid ⟨4, 0, 1, 0, 4⟩ := ⟨3, _, rfl, rfl, by decide⟩
  refine ⟨⟨⟨?_, ?_⟩, ⟨?_, ?_⟩, ?_, ?_⟩, ?_⟩
  · exact hreadLen.trans_le (by decide)
  · rw [hread]
    exact List.forall_mem_cons.mpr ⟨href, List.forall_mem_singleton.mpr hdirection⟩
  · exact hwriteLen.trans_le (by decide)
  · rw [hwrite]
    exact List.forall_mem_singleton.mpr hspeed
  · rw [hreadSize, hread]
    decide
  · rw [hwriteSize, hwrite]
    decide
  · have hbank' : s.bank = Drive.initial.bank := by
      rw [← bank_boot]
      funext i
      rw [bank, bank, hbank]
    rw [drive, hbank', hread, hwrite, horder]
    rfl

/-- The reference is set to 300, low byte first behind the header. -/
def setRefSpeed : ℕ → UInt8 := fun i => [0, 254, 3, 0, 0x42, 2, 5, 0, 1, 44].getD i 0

/-- Three steps, one of each kind. -/
def firstCommands : List AppdOp :=
  [.command setRefSpeed, .processDataChanged fun _ => 0, .newReadProcessData fun _ => 0]

/-- A command to an instance loses no map. -/
theorem firstCommands_ok (s : Appd) : Run.Along step AppdOp.Ok s firstCommands := by
  have hcmd : s.CommandOk setRefSpeed :=
    ⟨by decide, fun hobj => absurd hobj (by decide)⟩
  exact ⟨hcmd, fun _ _ _ => ⟨trivial, fun _ _ _ => ⟨trivial, fun _ _ _ => trivial⟩⟩⟩

end Appd

/-! ### Limits -/

/-- A value within the limits of an instance.  Those of the speed exclude each other: it has its
first value, 0. -/
def InRange (i : ℕ) (v : ℤ) : Prop :=
  if i = 0 then v = 0 else v ∈ Set.Icc (Appd.limits.lo i) (Appd.limits.hi i)

/-- No value that the network sees is out of range. -/
def DriveEvent.InRange : DriveEvent → Prop
  | .value i v => Start01.InRange i v
  | .taken i v => Start01.InRange i v
  | .sent values => ∀ p ∈ values, Start01.InRange p.1 p.2
  | _ => True

/-- -500 is 65036 as a UINT16. -/
theorem speed_limits : Appd.limits.hi 0 < Appd.limits.lo 0 := by decide

theorem inRange_of_takes {i : ℕ} {v : ℤ} (h : Appd.limits.Takes (i, v)) : InRange i v := by
  unfold InRange
  split
  · rename_i hi
    rw [hi] at h
    exact absurd (h.1.trans h.2) (not_le.mpr speed_limits)
  · exact h

namespace Drive

/-- All the values are in range. -/
def Ranged (d : Drive) : Prop := ∀ i, InRange i (d.bank i)

variable {d : Drive}

theorem Ranged.offers (h : d.Ranged) (os : List (ℕ × ℤ)) (i : ℕ) :
    InRange i (Bank.offers Appd.limits d.bank os i) := by
  have hi := h i
  unfold InRange at hi ⊢
  split
  · rename_i hzero
    rw [if_pos hzero] at hi
    rw [hzero] at hi ⊢
    rw [Bank.offers_of_lt speed_limits, hi]
  · rename_i hzero
    rw [if_neg hzero] at hi
    exact Bank.Within.offers hi os

theorem Ranged.command (h : d.Ranged) (m : ℕ → UInt8) :
    (d.command m).1.Ranged ∧ ∀ e ∈ (d.command m).2, e.InRange := by
  have hnone : d.Ranged ∧ ∀ e ∈ ([] : List DriveEvent), e.InRange :=
    ⟨h, fun e he => absurd he List.not_mem_nil⟩
  have hone : ∀ {d' : Drive} {e : DriveEvent}, d'.Ranged → e.InRange →
      d'.Ranged ∧ ∀ e' ∈ [e], e'.InRange :=
    fun hd he => ⟨hd, List.forall_mem_singleton.mpr he⟩
  unfold Drive.command
  split
  · split
    · split
      · exact hone h trivial
      · exact hone h trivial
    · split
      · split
        · exact hone h trivial
        · exact hone h trivial
      · exact hnone
  · split
    · exact hnone
    · rename_i i adi hadi
      split
      · exact hone h (h i)
      split
      · dsimp only
        split
        · rename_i hset
          refine hone (fun j => ?_) (inRange_of_takes hset.2)
          have hoffer := h.offers [(i, Appd.netValue d.eFormat adi.bDataType m 8)] j
          rw [Bank.offers_cons, Bank.offer_of_takes hset.2] at hoffer
          exact hoffer
        · exact hone h trivial
      · exact hnone

theorem Ranged.step (h : d.Ranged) (op : AppdOp) :
    (d.step op).1.Ranged ∧ ∀ e ∈ (d.step op).2, e.InRange := by
  cases op with
  | command m => exact h.command m
  | newReadProcessData abData => exact ⟨h.offers _, fun e he => absurd he List.not_mem_nil⟩
  | processDataChanged abData =>
    refine ⟨h, List.forall_mem_singleton.mpr fun p hp => ?_⟩
    obtain ⟨i, -, rfl⟩ := List.mem_map.mp hp
    exact h i
  | setNetworkByteOrder eFormat => exact ⟨h, fun e he => absurd he List.not_mem_nil⟩

theorem ranged_initial : Drive.initial.Ranged := by
  intro i
  match i with
  | 0 | 1 | 2 | 3 | 4 =>
    unfold InRange
    decide
  | i + 5 => exact ⟨le_refl 0, le_refl 0⟩

end Drive

namespace Appd

variable {s s' : Appd}

/-- **Limits.**  In each such run, every value that the network reads, or has set, is within the
limits; the speed is 0 for ever. -/
theorem appd_in_range {ops : List AppdOp} {events : List DriveEvent}
    (h : boot.mapAdiToPd = some s) (hok : Run.Along step AppdOp.Ok s ops)
    (hrun : Run.run step s ops = some (s', events)) :
    (∀ i, InRange i (s'.bank i)) ∧ ∀ e ∈ events, e.InRange := by
  obtain ⟨hgood, hdrive⟩ := boot_spec h
  have hstep : ∀ (s : Appd) (op : AppdOp) (s' : Appd) (o : List DriveEvent),
      Good s ∧ s.drive.Ranged → op.Ok s → step s op = some (s', o) →
      (Good s' ∧ s'.drive.Ranged) ∧ ∀ e ∈ o, e.InRange := by
    rintro s op s' o ⟨hs, hranged⟩ hop hs'
    obtain ⟨s₁, hs₁, hgood₁, hdrive₁⟩ := step_spec hs hop
    obtain ⟨rfl, rfl⟩ := Prod.mk.inj (Option.some.inj (hs₁.symm.trans hs'))
    obtain ⟨hranged₁, hevents⟩ := hranged.step op
    exact ⟨⟨hgood₁, hdrive₁ ▸ hranged₁⟩, hevents⟩
  obtain ⟨⟨-, hranged⟩, hevents⟩ :=
    Run.run_along hstep ⟨hgood, hdrive ▸ Drive.ranged_initial⟩ hok hrun
  exact ⟨hranged, hevents⟩

theorem appd_in_range_first : ∃ s s' events, boot.mapAdiToPd = some s ∧
    Run.run step s firstCommands = some (s', events) ∧
    (∀ i, InRange i (s'.bank i)) ∧ ∀ e ∈ events, e.InRange := by
  obtain ⟨s, hs⟩ : ∃ s, boot.mapAdiToPd = some s := ⟨_, rfl⟩
  obtain ⟨hgood, hdrive⟩ := boot_spec hs
  obtain ⟨s', hrun, -⟩ := Run.run_refines (R := fun s d => Good s ∧ s.drive = d)
    (fun s d op hR hop => by
      obtain ⟨hs, rfl⟩ := hR
      exact step_spec hs hop) ⟨hgood, hdrive⟩ (firstCommands_ok s)
  exact ⟨s, s', _, hs, hrun, appd_in_range hs (firstCommands_ok s) hrun⟩

end Appd

end Start01
