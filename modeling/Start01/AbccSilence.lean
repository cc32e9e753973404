/-
Start01/AbccSilence.lean

A module that does not answer.  The telegram goes out again every 60 ms, and after 5000 ms the loss
of the module is reported, once; the first answer after that is reported too.

`alarm` is what the reports depend on, beside the state of the data link: most of the driver does
not touch it.  In every run, losses and recoveries are reported in turn (`abcc_alarms_alternate`).
-/
import Start01.AbccRun

namespace Start01

open Run

/-! ### Timers -/

/-- A timer that is off does not run out. -/
theorem OneTimerEntry.run_off {t : OneTimerEntry} (h : t.fEnabled = false) :
    t.run 10 = (t, false) := by
  rw [run, if_neg (by simp [h])]

/-! ### The reports -/

/-- `ABCC_CbfWdTimeout` and `ABCC_CbfWdTimeoutRecovered`. -/
def alarmOf : AbccCall → Option Bool
  | .wdTimeout => some true
  | .wdTimeoutRecovered => some false
  | _ => none

/-- What the reports depend on. -/
structure Alarm where
  fAbccWdToOccured : Bool
  fAbccWdTo : Bool
  abccWdTimer : OneTimerEntry
  alarms : List Bool

namespace Abcc

/-- The losses and recoveries reported. -/
def alarms (s : Abcc) : List Bool := s.calls.filterMap alarmOf

/-- A state of the driver as one of the reports. -/
def alarm (s : Abcc) : Alarm :=
  ⟨s.apdr.fAbccWdToOccured, s.apdr.fAbccWdTo, s.abccWdTimer, s.alarms⟩

variable {s s' : Abcc}

/-! ### What does not touch them -/

/-- A call that is no report. -/
theorem alarms_append {c : AbccCall} (h : alarmOf c = none) (l : List AbccCall) :
    (l ++ [c]).filterMap alarmOf = l.filterMap alarmOf := by
  rw [List.filterMap_append, List.filterMap_cons_none h, List.filterMap_nil, List.append_nil]

/-- Such a call leaves the reports as they are. -/
theorem alarm_call {c : AbccCall} (h : alarmOf c = none) (s : Abcc) : (s.call c).alarm = s.alarm := by
  simp only [alarm, alarms, call, alarms_append h]

theorem alarm_setPdSize (s : Abcc) (r w : UInt16) : (s.setPdSize r w).alarm = s.alarm := by
  simp only [alarm, alarms, setPdSize]
  rw [alarms_append rfl]

/-- So does the state of the driver… -/
theorem alarm_changeDriverState (s : Abcc) (e : DriverState) :
    (s.changeDriverState e).alarm = s.alarm := by
  unfold changeDriverState
  split
  · rfl
  · rfl
  · rfl
  · rfl
  · exact alarm_call rfl s

theorem alarm_useNewWritePdMap (s : Abcc) : s.useNewWritePdMap.alarm = s.alarm :=
  alarm_setPdSize s _ _

theorem alarm_completeWrPdRemap (s : Abcc) : s.completeWrPdRemap.alarm = s.alarm := by
  unfold completeWrPdRemap
  split
  · exact alarm_useNewWritePdMap { s with apdr := { s.apdr with fCompleteWrPdRemap := false } }
  · rfl

theorem alarm_completeResponse (s : Abcc) (m : ℕ → UInt8) :
    (s.completeResponse m).alarm = s.alarm := by
  have hmap : ∀ (t : Abcc) (n : UInt16), (t.useNewReadPdMap n).alarm = t.alarm :=
    fun t n => alarm_setPdSize t _ _
  unfold completeResponse
  dsimp only
  split
  · rw [hmap]
    split <;> rfl
  · split <;> rfl

/-- …the end of a message to the module… -/
theorem alarm_completeMsgTrans (s : Abcc) (r : BufRef) : (s.completeMsgTrans r).alarm = s.alarm := by
  unfold completeMsgTrans
  dsimp only
  split
  · rfl
  · exact alarm_completeResponse s _

theorem alarm_noteReceived (s : Abcc) (m : ℕ → UInt8) : (s.noteReceived m).alarm = s.alarm := by
  unfold noteReceived
  split
  · rfl
  split
  · rw [setupComplete, alarm_changeDriverState]
    exact alarm_setPdSize s _ _
  · rfl

/-- …a message of the module… -/
theorem alarm_messageReceived (s : Abcc) (r : BufRef) : (s.messageReceived r).alarm = s.alarm := by
  unfold messageReceived
  dsimp only
  split
  · exact alarm_noteReceived s _
  · exact alarm_noteReceived s _

/-- …and the process data. -/
theorem alarm_putProcessData (s : Abcc) (b : UInt8) (p : ℕ → UInt8) (n : UInt16) :
    (s.putProcessData b p n).alarm = s.alarm := by
  have hread : ∀ (t : Abcc) (f : Bool) (d : Option (ℕ → UInt8)),
      (t.newReadPd f n d).alarm = t.alarm := fun t f d => alarm_call rfl t
  dsimp only [putProcessData]
  split
  · split
    · exact hread _ _ _
    · rfl
  split
  · split
    · split
      · exact hread _ _ _
      · rfl
    · exact hread _ _ _
  split
  · exact hread _ _ _
  · rfl

theorem alarm_getNewProcessData (s : Abcc) (i : ℕ) (n : UInt16) :
    (s.getNewProcessData i n).alarm = s.alarm := by
  unfold getNewProcessData
  split
  · rfl
  split
  · rfl
  split
  · rfl
  split <;> rfl

/-! ### The application -/

/-- What a call of the application leaves as it is. -/
def Calm (s s' : Abcc) : Prop := s'.alarm = s.alarm ∧ s'.apdr.eState = s.apdr.eState

theorem Calm.trans {s'' : Abcc} (h : Calm s s') (h' : Calm s' s'') : Calm s s'' :=
  ⟨h'.1.trans h.1, h'.2.trans h.2⟩

/-- A message is posted, or its buffer given free. -/
theorem Calm.addFragAndPostMsg (h : Calm s s') (r : BufRef) : Calm s (s'.addFragAndPostMsg r).1 := by
  have hpost : ∀ (t t' : Abcc) (p : Pool), t.post p r = some t' → Calm t t' := by
    intro t t' p ht
    obtain ⟨q, -, rfl⟩ := Option.map_eq_some_iff.mp ht
    exact ⟨rfl, rfl⟩
  refine h.trans ?_
  unfold Abcc.addFragAndPostMsg
  dsimp only
  split
  · split
    · exact ⟨rfl, rfl⟩
    split
    · rename_i t ht
      exact hpost (s'.putFrag r _ 0) t _ ht
    · exact ⟨rfl, rfl⟩
  · split
    · rename_i t ht
      exact hpost (s'.putFrag r _ 0) t _ ht
    · exact ⟨rfl, rfl⟩

theorem calm_allocate {p : Pool} {r : BufRef} (h : s.allocate p = some (r, s')) : Calm s s' := by
  obtain ⟨-, -, -, rfl⟩ := allocate_spec h
  exact ⟨rfl, rfl⟩

/-- `APLINK_SendMessage` is calm. -/
theorem calm_sendMessage (s : Abcc) (m : ℕ → UInt8) : Calm s (s.sendMessage m).1 := by
  unfold sendMessage
  split
  · split
    · exact ⟨rfl, rfl⟩
    · rename_i r t ht
      have ht : Calm s t := calm_allocate ht
      exact @Calm.addFragAndPostMsg s ((t.noteRemap m).putMsg r _) ht r
  · exact ⟨rfl, rfl⟩

theorem calm_changeDriverState (s : Abcc) (e : DriverState) : Calm s (s.changeDriverState e) := by
  refine ⟨s.alarm_changeDriverState e, ?_⟩
  unfold changeDriverState
  split <;> rfl

/-- The application is given a message. -/
theorem calm_handleQueuedMsgsToAppl {app : (ℕ → UInt8) → List (ℕ → UInt8)}
    (h : s.handleQueuedMsgsToAppl app = some s') : Calm s s' := by
  have hfold : ∀ (ms : List (ℕ → UInt8)) (t : Abcc),
      Calm t (ms.foldl (fun s m => (s.sendMessage m).1) t) := by
    intro ms
    induction ms with
    | nil => exact fun t => ⟨rfl, rfl⟩
    | cons m ms ih => exact fun t => (calm_sendMessage t m).trans (ih _)
  unfold handleQueuedMsgsToAppl at h
  split at h
  · obtain rfl := Option.some.inj h
    exact ⟨rfl, rfl⟩
  · cases h
  · rename_i r q hq
    obtain rfl := Option.some.inj h
    refine Calm.trans ?_ (hfold _ _)
    dsimp only [takeMsg]
    refine ⟨(alarm_call rfl _).trans ?_, ?_⟩
    · split <;> rfl
    · split <;> rfl

theorem calm_cfgSend {fill : (ℕ → UInt8) → ℕ → UInt8} (h : s.cfgSend fill = some s') :
    Calm s s' := by
  unfold cfgSend at h
  rw [Option.bind_eq_bind, Option.bind_eq_some_iff] at h
  obtain ⟨⟨r, t⟩, ht, h⟩ := h
  obtain rfl := Option.some.inj h
  have ht : Calm s t := calm_allocate ht
  exact @Calm.addFragAndPostMsg s (t.putMsg r _) ht r

theorem calm_cfgTake (h : s.cfgTake = some s') : Calm s s' := by
  unfold cfgTake at h
  split at h
  · obtain rfl := Option.some.inj h
    exact ⟨rfl, rfl⟩
  · cases h
  · obtain rfl := Option.some.inj h
    exact ⟨rfl, rfl⟩

/-! ### The rounds of the loop -/

/-- What a round without a report leaves as it is. -/
def Quiet (s s' : Abcc) : Prop :=
  s'.alarms = s.alarms ∧ s'.apdr.fAbccWdToOccured = s.apdr.fAbccWdToOccured

theorem Quiet.trans {s'' : Abcc} (h : Quiet s s') (h' : Quiet s' s'') : Quiet s s'' :=
  ⟨h'.1.trans h.1, h'.2.trans h.2⟩

theorem quiet_of_alarm (h : s'.alarm = s.alarm) : Quiet s s' :=
  ⟨congrArg Alarm.alarms h, congrArg Alarm.fAbccWdToOccured h⟩

theorem quiet_closeTelegram (s : Abcc) : Quiet s s.closeTelegram :=
  quiet_of_alarm (s.alarm_getNewProcessData 17 s.apdr.iPdWriteLength)

theorem quiet_postTelegram (s : Abcc) : Quiet s s.postTelegram := ⟨alarms_append rfl _, rfl⟩

/-- A new telegram reports nothing. -/
theorem quiet_sendNewTelegram {behind : ℕ → UInt8} {fMessage : Bool}
    (h : s.sendNewTelegram behind fMessage = some s') :
    Quiet s s' ∧ s'.apdr.eState = .waitForTelegram := by
  have hclose : ∀ t : Abcc, Quiet t t.closeTelegram.postTelegram :=
    fun t => (quiet_closeTelegram t).trans (quiet_postTelegram _)
  unfold sendNewTelegram buildSerialTelegram at h
  cases fMessage with
  | false =>
    obtain rfl := Option.some.inj h
    exact ⟨hclose _, rfl⟩
  | true =>
    rw [Option.map_map, Option.map_eq_some_iff] at h
    obtain ⟨t, ht, rfl⟩ := h
    refine ⟨Quiet.trans ?_ (hclose t), rfl⟩
    change (s.setReg true).putReg.copyFragment behind = some t at ht
    rw [copyFragment, Option.bind_eq_bind, Option.bind_eq_some_iff] at ht
    obtain ⟨r, -, ht⟩ := ht
    dsimp only at ht
    split at ht
    · obtain rfl := Option.some.inj ht
      exact ⟨rfl, rfl⟩
    · obtain rfl := Option.some.inj ht
      exact quiet_of_alarm (alarm_call rfl (s.setReg true).putReg)

theorem quiet_nextState (s : Abcc) : Quiet s s.nextState ∧ s.nextState.apdr.eState ≠ .abccComLost := by
  unfold nextState
  split
  · exact ⟨⟨rfl, rfl⟩, fun hc => by cases hc⟩
  · rename_i r hr
    dsimp only
    split
    · exact ⟨⟨rfl, rfl⟩, fun hc => by cases hc⟩
    split
    · refine ⟨quiet_of_alarm (alarm_completeMsgTrans _ r), ?_⟩
      have hlink := link_completeMsgTrans ((s.putFrag r 0 0).goto .sendTelegramWithoutMessage) r
      have hstate := congrArg Link.eState hlink
      change (completeMsgTrans _ r).apdr.eState = _ at hstate
      intro hc
      have hc : (completeMsgTrans _ r).apdr.eState = _ := hc
      rw [hstate] at hc
      cases hc
    · exact ⟨⟨rfl, rfl⟩, fun hc => by cases hc⟩

/-- Nor does a telegram that is done with. -/
theorem quiet_finishTelegram (s : Abcc) :
    Quiet s s.finishTelegram ∧ s.finishTelegram.apdr.eState ≠ .abccComLost := by
  have hput := quiet_of_alarm (s.alarm_putProcessData (s.apdr.bCurrentStatusReg &&& 0x0F)
    (fun i => s.apdr.pbReceptionBuffer (17 + i)) s.apdr.iPdReadLength)
  have hnext := quiet_nextState (s.putProcessData (s.apdr.bCurrentStatusReg &&& 0x0F)
    (fun i => s.apdr.pbReceptionBuffer (17 + i)) s.apdr.iPdReadLength)
  exact ⟨hput.trans hnext.1, hnext.2⟩

theorem quiet_keepFragment (s : Abcc) : Quiet s s.keepFragment := by
  unfold keepFragment
  dsimp only
  split
  · exact ⟨rfl, rfl⟩
  split
  · exact ⟨rfl, rfl⟩
  · exact quiet_of_alarm (alarm_call rfl s)

theorem quiet_passMessage (h : s.passMessage = some s') : Quiet s s' := by
  rw [passMessage, Option.map_eq_some_iff] at h
  obtain ⟨⟨r, t⟩, ht, rfl⟩ := h
  have hcopy : Quiet s (t.copyMessage r) := quiet_of_alarm (calm_allocate ht).1
  exact hcopy.trans (quiet_of_alarm (alarm_messageReceived _ r))

/-- A round in APDR_SM_PROCESS_RECEIVED_TELEGRAM reports nothing. -/
theorem quiet_smProcessReceivedTelegram (s : Abcc) : Quiet s s.smProcessReceivedTelegram.1 ∧
    (s.apdr.eState = .processReceivedTelegram →
      s.smProcessReceivedTelegram.1.apdr.eState ≠ .abccComLost) := by
  unfold smProcessReceivedTelegram
  split
  · have hfinish := quiet_finishTelegram s.keepFragment
    exact ⟨(quiet_keepFragment s).trans hfinish.1, fun _ => hfinish.2⟩
  split
  · have hfinish := quiet_finishTelegram s
    exact ⟨hfinish.1, fun _ => hfinish.2⟩
  split
  · refine ⟨quiet_of_alarm (alarm_call rfl s), fun hs hc => ?_⟩
    have hc : s.apdr.eState = .abccComLost := hc
    rw [hs] at hc
    cases hc
  · rename_i t ht
    have hfinish := quiet_finishTelegram t
    exact ⟨(quiet_passMessage ht).trans hfinish.1, fun _ => hfinish.2⟩

/-- Nor does one in APDR_SM_IDLE. -/
theorem quiet_smIdle (s : Abcc) : Quiet s s.smIdle ∧ s.smIdle.apdr.eState ≠ .abccComLost := by
  have hsend : ∀ (t : Abcc) (type : SentMsgType) (s' : Abcc), t.sendFrom type = some s' →
      Quiet t s' ∧ s'.apdr.eState = .sendTelegramWithMessage := by
    intro t type s' hs'
    unfold sendFrom at hs'
    extract_lets queue at hs'
    rw [getNextMessage, Option.map_map, Option.map_eq_some_iff] at hs'
    obtain ⟨rq, -, rfl⟩ := hs'
    exact ⟨⟨rfl, rfl⟩, rfl⟩
  obtain ⟨t, next, ht, hnext, heq⟩ := s.smIdle_eq
  have hquiet : Quiet s t := by
    rw [ht]
    exact ⟨rfl, rfl⟩
  rw [heq]
  cases next with
  | none => exact ⟨hquiet, fun hc => by cases hc⟩
  | some s' =>
    obtain ⟨type, htype⟩ := hnext s' rfl
    obtain ⟨hsent, hstate⟩ := hsend t type s' htype
    refine ⟨hquiet.trans hsent, fun hc => ?_⟩
    have hc : s'.apdr.eState = .abccComLost := hc
    rw [hstate] at hc
    cases hc

end Abcc

/-! ### Losses and recoveries in turn -/

/-- A loss, a recovery, and so on; the last one is a loss if the module is missing. -/
def InTurn (missing : Bool) (alarms : List Bool) : Prop :=
  ∃ n, alarms = (List.replicate n [true, false]).flatten ++ if missing then [true] else []

/-- Behind a recovery comes a loss… -/
theorem InTurn.lose {alarms : List Bool} (h : InTurn false alarms) :
    InTurn true (alarms ++ [true]) := by
  obtain ⟨n, rfl⟩ := h
  exact ⟨n, by simp⟩

/-- …and behind a loss a recovery. -/
theorem InTurn.recover {alarms : List Bool} (h : InTurn true alarms) :
    InTurn false (alarms ++ [false]) := by
  obtain ⟨n, rfl⟩ := h
  exact ⟨n + 1, by simp [List.replicate_succ']⟩

/-- What holds between two steps.  While the module is missing, the driver waits for a telegram and
the watchdog is off. -/
structure Alarmed (s : Abcc) : Prop where
  inTurn : InTurn s.apdr.fAbccWdToOccured s.alarms
  missing : s.apdr.fAbccWdToOccured = true → s.apdr.eState = .waitForTelegram ∧
    s.abccWdTimer.fEnabled = false ∧ s.apdr.fAbccWdTo = false
  lost : s.apdr.eState = .abccComLost → s.abccWdTimer.fEnabled = false

namespace Alarmed

open Abcc

variable {s s' : Abcc}

/-- Where the driver does not wait, the module is there. -/
theorem present (h : Alarmed s) (hs : s.apdr.eState ≠ .waitForTelegram) :
    s.apdr.fAbccWdToOccured = false := by
  by_contra hm
  exact hs (h.missing (Bool.eq_true_of_not_eq_false hm)).1

/-- A round without a report, with the module there. -/
theorem quiet (h : Alarmed s) (hs : s.apdr.eState ≠ .waitForTelegram) (hq : Quiet s s')
    (hs' : s'.apdr.eState ≠ .abccComLost) : Alarmed s' := by
  have hpresent := h.present hs
  refine ⟨?_, fun hm => ?_, fun hl => absurd hl hs'⟩
  · rw [hq.1, hq.2]
    exact h.inTurn
  · rw [hq.2, hpresent] at hm
    cases hm

/-- A call of the application. -/
theorem calm (h : Alarmed s) (hc : Calm s s') : Alarmed s' := by
  have hocc : s'.apdr.fAbccWdToOccured = s.apdr.fAbccWdToOccured :=
    congrArg Alarm.fAbccWdToOccured hc.1
  have hto : s'.apdr.fAbccWdTo = s.apdr.fAbccWdTo := congrArg Alarm.fAbccWdTo hc.1
  have hwd : s'.abccWdTimer = s.abccWdTimer := congrArg Alarm.abccWdTimer hc.1
  have halarms : s'.alarms = s.alarms := congrArg Alarm.alarms hc.1
  refine ⟨?_, ?_, ?_⟩
  · rw [hocc, halarms]
    exact h.inTurn
  · rw [hocc, hc.2, hwd, hto]
    exact h.missing
  · rw [hc.2, hwd]
    exact h.lost

/-- An answer is accepted. -/
theorem accept (h : Alarmed s) : Alarmed s.accept := by
  have hturn : InTurn s.takeTelegram.noteRecovered.apdr.fAbccWdToOccured
      s.takeTelegram.noteRecovered.alarms ∧
      s.takeTelegram.noteRecovered.apdr.fAbccWdToOccured = false := by
    have hin : InTurn s.apdr.fAbccWdToOccured s.alarms := h.inTurn
    unfold noteRecovered
    split
    · rename_i hm
      have hm : s.apdr.fAbccWdToOccured = true := hm
      rw [hm] at hin
      refine ⟨?_, rfl⟩
      have halarms : (call { s.takeTelegram with
          apdr := { s.takeTelegram.apdr with fAbccWdToOccured := false } }
            .wdTimeoutRecovered).alarms = s.alarms ++ [false] := by
        rw [alarms, call, List.filterMap_append]
        rfl
      rw [halarms]
      exact hin.recover
    · rename_i hm
      exact ⟨hin, Bool.eq_false_of_not_eq_true hm⟩
  have hremap : Quiet s.takeTelegram.noteRecovered s.accept :=
    quiet_of_alarm (alarm_completeWrPdRemap _)
  refine ⟨?_, fun hm => ?_, fun hl => by cases hl⟩
  · rw [hremap.1, hremap.2]
    exact hturn.1
  · rw [hremap.2, hturn.2] at hm
    cases hm

/-- A telegram that is accepted is the recovery, if there was a loss. -/
theorem smWaitForTelegram (h : Alarmed s) (hs : s.apdr.eState = .waitForTelegram) :
    Alarmed s.smWaitForTelegram.1 := by
  unfold Abcc.smWaitForTelegram
  split
  · split
    · exact h.accept
    · exact h.calm ⟨rfl, rfl⟩
  split
  · -- the telegram goes out again
    refine ⟨?_, fun hm => h.missing hm, fun hl => ?_⟩
    · have halarms : (retransmit (call { s with apdr := { s.apdr with fAbccTelegramTo := false } }
          (.reStartSerialComm s.apdr.iSerialLengthRead))).alarms = s.alarms := by
        rw [alarms, retransmit, sendTelegram]
        exact (alarms_append rfl _).trans (alarms_append rfl _)
      dsimp only
      rw [halarms]
      exact h.inTurn
    · have hl : s.apdr.eState = .abccComLost := hl
      rw [hs] at hl
      cases hl
  split
  · -- the watchdog runs only as long as the module is there
    rename_i hwd
    have hpresent : s.apdr.fAbccWdToOccured = false := by
      by_contra hm
      have hoff := (h.missing (Bool.eq_true_of_not_eq_false hm)).2.2
      rw [hoff] at hwd
      cases hwd
    refine ⟨h.inTurn, fun hm => ?_, fun _ => rfl⟩
    have hm : s.apdr.fAbccWdToOccured = true := hm
    rw [hpresent] at hm
    cases hm
  · exact h

/-- The loss is reported when there was none. -/
theorem smAbccComLost (h : Alarmed s) (hs : s.apdr.eState = .abccComLost) :
    Alarmed s.smAbccComLost := by
  have hin := h.inTurn
  rw [h.present (by rw [hs]; decide)] at hin
  refine ⟨?_, fun _ => ⟨rfl, h.lost hs, rfl⟩, fun hl => by cases hl⟩
  have halarms : s.smAbccComLost.alarms = s.alarms ++ [true] := by
    have hlost : s.noteLost.alarms = s.alarms ++ [true] := by
      rw [alarms, noteLost, call, List.filterMap_append]
      rfl
    rw [← hlost]
    exact alarms_append rfl _
  rw [halarms]
  exact hin.lose

/-- A round of the loop. -/
theorem pass (h : Alarmed s) {behind : ℕ → UInt8} {leaves : Bool}
    (hs' : s.pass behind = some (s', leaves)) : Alarmed s' := by
  unfold Abcc.pass at hs'
  split at hs'
  · rename_i hs
    obtain ⟨rfl, -⟩ := Prod.mk.inj (Option.some.inj hs')
    have hne : s.apdr.eState ≠ .waitForTelegram := by rw [hs]; decide
    have halarms : s.smInit.alarms = s.alarms := alarms_append rfl _
    have hin := h.inTurn
    rw [h.present hne] at hin
    refine ⟨?_, fun hm => (by cases hm), fun hl => (by cases hl)⟩
    rw [halarms]
    exact hin
  · rename_i hs
    have hne : s.apdr.eState ≠ .waitForTelegram := by rw [hs]; decide
    split at hs'
    · obtain ⟨rfl, -⟩ := Prod.mk.inj (Option.some.inj hs')
      exact h.quiet hne ⟨rfl, rfl⟩ fun hc => by cases hc
    · obtain ⟨rfl, -⟩ := Prod.mk.inj (Option.some.inj hs')
      exact h
  · rename_i hs
    obtain ⟨t, ht, heq⟩ := Option.map_eq_some_iff.mp hs'
    obtain ⟨rfl, -⟩ := Prod.mk.inj heq
    obtain ⟨hq, hwait⟩ := quiet_sendNewTelegram ht
    exact h.quiet (by rw [hs]; decide) hq (by rw [hwait]; decide)
  · rename_i hs
    obtain ⟨t, ht, heq⟩ := Option.map_eq_some_iff.mp hs'
    obtain ⟨rfl, -⟩ := Prod.mk.inj heq
    obtain ⟨hq, hwait⟩ := quiet_sendNewTelegram ht
    exact h.quiet (by rw [hs]; decide) hq (by rw [hwait]; decide)
  · rename_i hs
    obtain ⟨rfl, -⟩ := Prod.mk.inj (Option.some.inj hs')
    exact h.smWaitForTelegram hs
  · rename_i hs
    obtain ⟨rfl, -⟩ := Prod.mk.inj (Option.some.inj hs')
    obtain ⟨hq, hne⟩ := quiet_smProcessReceivedTelegram s
    exact h.quiet (by rw [hs]; decide) hq (hne hs)
  · rename_i hs
    obtain ⟨rfl, -⟩ := Prod.mk.inj (Option.some.inj hs')
    exact h.smAbccComLost hs
  · rename_i hs
    obtain ⟨rfl, -⟩ := Prod.mk.inj (Option.some.inj hs')
    obtain ⟨hq, hne⟩ := quiet_smIdle s
    exact h.quiet (by rw [hs]; decide) hq hne

/-- **Run of the loop.** -/
theorem runLoop (behind : ℕ → UInt8) (n : ℕ) : ∀ {s : Abcc}, Alarmed s →
    Abcc.runLoop behind n s = some s' → Alarmed s' := by
  induction n with
  | zero => exact fun _ hs' => (by cases hs')
  | succ n ih =>
    intro s h hs'
    rw [Abcc.runLoop, Option.bind_eq_bind, Option.bind_eq_some_iff] at hs'
    obtain ⟨⟨t, leaves⟩, hpass, hs'⟩ := hs'
    have ht := h.pass hpass
    cases leaves with
    | true =>
      obtain rfl := Option.some.inj hs'
      exact ht
    | false => exact ih ht hs'

/-- The watchdog runs out only while the module is there. -/
theorem tick (h : Alarmed s) : Alarmed s.runTimerSystem := by
  refine ⟨h.inTurn, fun hm => ?_, fun hl => ?_⟩
  · obtain ⟨hwait, hdis, hto⟩ := h.missing hm
    have hrun := OneTimerEntry.run_off hdis
    refine ⟨hwait, ?_, ?_⟩
    · show (s.abccWdTimer.run 10).1.fEnabled = false
      rw [hrun]
      exact hdis
    · show (s.apdr.fAbccWdTo || (s.abccWdTimer.run 10).2) = false
      rw [hrun, hto]
      rfl
  · have hdis := h.lost hl
    show (s.abccWdTimer.run 10).1.fEnabled = false
    rw [OneTimerEntry.run_off hdis]
    exact hdis

/-- **Step.** -/
theorem step (h : Alarmed s) {op : AbccOp} (hs' : s.step op = some s') : Alarmed s' := by
  cases op with
  | run behind => exact runLoop behind 5 h hs'
  | handle app => exact h.calm (calm_handleQueuedMsgsToAppl hs')
  | send psMessage =>
    obtain rfl := Option.some.inj hs'
    exact h.calm (calm_sendMessage s psMessage)
  | cfgSend fill => exact h.calm (calm_cfgSend hs')
  | cfgTake => exact h.calm (calm_cfgTake hs')
  | change e =>
    obtain rfl := Option.some.inj hs'
    exact h.calm (calm_changeDriverState s e)
  | tick =>
    obtain rfl := Option.some.inj hs'
    exact h.tick
  | received y =>
    obtain rfl := Option.some.inj hs'
    exact h.calm ⟨rfl, rfl⟩
  | writeProcessData pbData =>
    obtain rfl := Option.some.inj hs'
    refine h.calm ?_
    dsimp only [writeProcessData]
    split
    · exact ⟨rfl, rfl⟩
    · exact ⟨rfl, rfl⟩
  | newWritePd =>
    obtain rfl := Option.some.inj hs'
    exact h.calm ⟨rfl, rfl⟩
  | pdSize r w =>
    obtain rfl := Option.some.inj hs'
    exact h.calm ⟨rfl, rfl⟩

theorem boot (buf : BufRef → ℕ → UInt8) : Alarmed (Abcc.boot buf) where
  inTurn := ⟨0, rfl⟩
  missing := fun hm => by cases hm
  lost := fun hl => by cases hl

end Alarmed

/-- **Losses and recoveries** are reported in turn, the loss first, in every run. -/
theorem abcc_alarms_alternate (buf : BufRef → ℕ → UInt8) (ops : List AbccOp) (s : Abcc)
    (h : exec Abcc.step (Abcc.boot buf) ops = some s) :
    InTurn s.apdr.fAbccWdToOccured s.alarms := by
  have hstep : ∀ (s : Abcc) (op : AbccOp) (s' : Abcc), Alarmed s → True → s.step op = some s' →
      Alarmed s' := fun _ _ _ hs _ hs' => hs.step hs'
  exact (exec_invariant hstep (Alarmed.boot buf) (meets_of_forall fun _ _ _ => trivial) h).inTurn

/-! ### Silence -/

/-- A telegram has just gone out, and the watchdog has `w` ticks left: 500 behind APDR_SM_IDLE, less
in the middle of a message.  The two timers do not run out in the same tick. -/
structure Launched (s : Abcc) (w : ℕ) : Prop where
  pos : 0 < w
  le : w ≤ 500
  apart : w % 6 ≠ 0
  waits : s.apdr.eState = .waitForTelegram
  telegram : s.telegramToTimer = ⟨60, true⟩
  watchdog : s.abccWdTimer = ⟨UInt16.ofNat (10 * w), true⟩
  initHs : s.initHsTimer.fEnabled = false
  toTime : s.apdr.iTelegramToTime = 60
  received : s.apdr.fTelegramReceived = false
  telegramTo : s.apdr.fAbccTelegramTo = false
  wdTo : s.apdr.fAbccWdTo = false

namespace Abcc

/-- The telegram that goes out again. -/
def lastTelegram (s : Abcc) : List UInt8 :=
  chkBytes s.apdr.abTransmissionBuffer 0 s.apdr.iSerialLengthWrite.toNat

/-- What is called when it does. -/
def againCalls (s : Abcc) : List AbccCall :=
  [.reStartSerialComm s.apdr.iSerialLengthRead, .sendSerialTelegram s.lastTelegram]

/-- The driver has waited for `k` ticks since the telegram went out last. -/
def still (s : Abcc) (k : ℕ) (wd : OneTimerEntry) (missing : Bool) (calls : List AbccCall) : Abcc :=
  { s with
    telegramToTimer := ⟨UInt16.ofNat (60 - 10 * k), true⟩
    abccWdTimer := wd
    apdr := { s.apdr with fAbccWdToOccured := missing }
    calls := calls }

/-! ### A run while the driver waits -/

variable {s : Abcc} {behind : ℕ → UInt8}

theorem pass_waits (hs : s.apdr.eState = .waitForTelegram) (behind : ℕ → UInt8) :
    s.pass behind = some s.smWaitForTelegram := by
  unfold pass
  rw [hs]

/-- Nothing has come in and no time is over: nothing happens. -/
theorem run_calm (hs : s.apdr.eState = .waitForTelegram) (hr : s.apdr.fTelegramReceived = false)
    (ht : s.apdr.fAbccTelegramTo = false) (hw : s.apdr.fAbccWdTo = false) :
    s.runDataLinkStateMachine behind = some s := by
  have hwait : s.smWaitForTelegram = (s, true) := by
    rw [smWaitForTelegram, hr, ht, hw]
    rfl
  rw [runDataLinkStateMachine, runLoop, pass_waits hs, hwait]
  rfl

/-- The telegram goes out again. -/
theorem run_again (hs : s.apdr.eState = .waitForTelegram) (hr : s.apdr.fTelegramReceived = false)
    (ht : s.apdr.fAbccTelegramTo = true) : s.runDataLinkStateMachine behind
      = some (call { s with apdr := { s.apdr with fAbccTelegramTo := false } }
          (.reStartSerialComm s.apdr.iSerialLengthRead)).retransmit := by
  have hwait : s.smWaitForTelegram
      = ((call { s with apdr := { s.apdr with fAbccTelegramTo := false } }
          (.reStartSerialComm s.apdr.iSerialLengthRead)).retransmit, true) := by
    rw [smWaitForTelegram, hr, ht]
    rfl
  rw [runDataLinkStateMachine, runLoop, pass_waits hs, hwait]
  rfl

/-- The watchdog has run out. -/
theorem run_lost (hs : s.apdr.eState = .waitForTelegram) (hr : s.apdr.fTelegramReceived = false)
    (ht : s.apdr.fAbccTelegramTo = false) (hw : s.apdr.fAbccWdTo = true) :
    s.runDataLinkStateMachine behind
      = some (goto { s with abccWdTimer := s.abccWdTimer.stop } .abccComLost).smAbccComLost := by
  have hwait : s.smWaitForTelegram
      = (goto { s with abccWdTimer := s.abccWdTimer.stop } .abccComLost, false) := by
    rw [smWaitForTelegram, hr, ht, hw]
    rfl
  rw [runDataLinkStateMachine, runLoop, pass_waits hs, hwait]
  rfl

end Abcc

/-- A tick, and then one run of the loop or more. -/
def silentRound (behinds : (ℕ → UInt8) × List (ℕ → UInt8)) : List AbccOp :=
  .tick :: .run behinds.1 :: behinds.2.map .run

namespace OneTimerEntry

/-- A timer that does not run out. -/
theorem run_of_gt {n : ℕ} (h : 10 < n) (hn : n < 65536) :
    (⟨UInt16.ofNat n, true⟩ : OneTimerEntry).run 10 = (⟨UInt16.ofNat (n - 10), true⟩, false) := by
  have hnat : (UInt16.ofNat n).toNat = n := UInt16.toNat_ofNat_of_lt hn
  have hzero : UInt16.ofNat n ≠ 0 := fun hc => by
    have := congrArg UInt16.toNat hc
    rw [hnat, UInt16.toNat_zero] at this
    omega
  have hle : ¬ UInt16.ofNat n ≤ 10 := fun hc => by
    rw [UInt16.le_iff_toNat_le, hnat] at hc
    exact absurd hc (by show ¬ n ≤ 10; omega)
  have hsub : UInt16.ofNat n - 10 = UInt16.ofNat (n - 10) :=
    (UInt16.ofNat_sub (show 10 ≤ n by omega)).symm
  rw [run, if_pos ⟨rfl, hzero⟩, if_neg hle, hsub]

end OneTimerEntry

namespace Launched

open Abcc

variable {s : Abcc} {w k : ℕ} {wd wd' : OneTimerEntry} {missing : Bool} {calls : List AbccCall}

/-- The flags of a state in which the driver waits. -/
theorem still_runs (h : Launched s w) (behinds : List (ℕ → UInt8)) :
    exec Abcc.step (s.still k wd missing calls) (behinds.map .run)
      = some (s.still k wd missing calls) := by
  induction behinds with
  | nil => rfl
  | cons behind behinds ih =>
    have hrun : (s.still k wd missing calls).step (.run behind) = some _ :=
      run_calm h.waits h.received h.telegramTo h.wdTo
    rw [List.map_cons, exec, hrun]
    exact ih

/-- What a tick leaves. -/
theorem tick_eq (h : Launched s w) {t wd' : OneTimerEntry} {fTelegramTo fWdTo : Bool}
    (ht : (⟨UInt16.ofNat (60 - 10 * k), true⟩ : OneTimerEntry).run 10 = (t, fTelegramTo))
    (hw : wd.run 10 = (wd', fWdTo)) :
    (s.still k wd missing calls).runTimerSystem = { s.still k wd missing calls with
      telegramToTimer := t
      abccWdTimer := wd'
      apdr := { (s.still k wd missing calls).apdr with
        fAbccTelegramTo := fTelegramTo
        fAbccWdTo := fWdTo } } := by
  have hi := OneTimerEntry.run_off h.initHs
  rw [runTimerSystem]
  dsimp only [still]
  rw [ht, hw, hi]
  dsimp only
  rw [h.telegramTo, h.wdTo, Bool.false_or, Bool.false_or, Bool.or_false]

/-- A round in which no timer runs out. -/
theorem round_quiet (h : Launched s w) (hk : k < 5) (hw : wd.run 10 = (wd', false))
    (b : (ℕ → UInt8) × List (ℕ → UInt8)) :
    exec Abcc.step (s.still k wd missing calls) (silentRound b)
      = some (s.still (k + 1) wd' missing calls) := by
  have ht := OneTimerEntry.run_of_gt (show 10 < 60 - 10 * k by omega) (by omega)
  have htick : (s.still k wd missing calls).runTimerSystem
      = s.still (k + 1) wd' missing calls := by
    rw [h.tick_eq ht hw]
    have hback : 60 - 10 * k - 10 = 60 - 10 * (k + 1) := by omega
    dsimp only [still]
    rw [hback, h.telegramTo, h.wdTo]
  have hstep : (s.still k wd missing calls).step .tick = some _ := congrArg some htick
  rw [silentRound, exec, hstep]
  exact h.still_runs (b.1 :: b.2)

/-- A round in which the telegram goes out again. -/
theorem round_again (h : Launched s w) (hw : wd.run 10 = (wd', false))
    (b : (ℕ → UInt8) × List (ℕ → UInt8)) :
    exec Abcc.step (s.still 5 wd missing calls) (silentRound b)
      = some (s.still 0 wd' missing (calls ++ s.againCalls)) := by
  have ht : (⟨UInt16.ofNat (60 - 10 * 5), true⟩ : OneTimerEntry).run 10 = (⟨0, true⟩, true) := rfl
  have htick := @tick_eq s w 5 wd missing calls h _ _ _ _ ht hw
  have hrun : ((s.still 5 wd missing calls).runTimerSystem).step (.run b.1)
      = some (s.still 0 wd' missing (calls ++ s.againCalls)) := by
    rw [htick]
    show runDataLinkStateMachine _ b.1 = _
    rw [run_again (by exact h.waits) (by exact h.received) rfl, Option.some_inj]
    dsimp only [retransmit, sendTelegram, call, still, againCalls, lastTelegram]
    rw [h.toTime, h.telegramTo, h.wdTo, List.append_assoc]
    rfl
  rw [silentRound, exec]
  show exec Abcc.step (s.still 5 wd missing calls).runTimerSystem (.run b.1 :: b.2.map .run) = _
  rw [exec, hrun]
  exact h.still_runs b.2

/-- A round in which the watchdog runs out. -/
theorem round_lost (h : Launched s w) (hk : k < 5) (hw : wd.run 10 = (wd', true))
    (b : (ℕ → UInt8) × List (ℕ → UInt8)) :
    exec Abcc.step (s.still k wd missing calls) (silentRound b)
      = some (s.still 0 wd'.stop true
          (calls ++ [.wdTimeout, .sendSerialTelegram s.lastTelegram])) := by
  have ht := OneTimerEntry.run_of_gt (show 10 < 60 - 10 * k by omega) (by omega)
  have htick := @tick_eq s w k wd missing calls h _ _ _ _ ht hw
  have hrun : ((s.still k wd missing calls).runTimerSystem).step (.run b.1)
      = some (s.still 0 wd'.stop true
          (calls ++ [.wdTimeout, .sendSerialTelegram s.lastTelegram])) := by
    rw [htick]
    show runDataLinkStateMachine _ b.1 = _
    rw [run_lost (by exact h.waits) (by exact h.received) rfl rfl, Option.some_inj]
    dsimp only [smAbccComLost, noteLost, goto, retransmit, sendTelegram, call, still, lastTelegram]
    rw [h.toTime, h.telegramTo, h.wdTo, h.waits, List.append_assoc]
    rfl
  rw [silentRound, exec]
  show exec Abcc.step (s.still k wd missing calls).runTimerSystem (.run b.1 :: b.2.map .run) = _
  rw [exec, hrun]
  exact h.still_runs b.2

end Launched

namespace Abcc

/-- The calls of `n` rounds, when the watchdog has `w` left: the telegram again in every sixth round,
and the loss in round `w`, with the telegram, from which on the rounds count anew. -/
def silentCalls (s : Abcc) (w n : ℕ) : List AbccCall :=
  if n < w then (List.replicate (n / 6) s.againCalls).flatten
  else (List.replicate (w / 6) s.againCalls).flatten
    ++ [.wdTimeout, .sendSerialTelegram s.lastTelegram]
    ++ (List.replicate ((n - w) / 6) s.againCalls).flatten

/-- The state after `n` rounds. -/
def silent (s : Abcc) (w n : ℕ) : Abcc :=
  if n < w then
    s.still (n % 6) ⟨UInt16.ofNat (10 * w - 10 * n), true⟩ s.apdr.fAbccWdToOccured
      (s.calls ++ s.silentCalls w n)
  else s.still ((n - w) % 6) ⟨0, false⟩ true (s.calls ++ s.silentCalls w n)

variable {s : Abcc} {w n : ℕ}

/-- Between two repetitions. -/
theorem silentCalls_quiet (h : n % 6 ≠ 5) (hn : n + 1 < w) :
    s.silentCalls w (n + 1) = s.silentCalls w n := by
  rw [silentCalls, silentCalls, if_pos hn, if_pos (by omega), show (n + 1) / 6 = n / 6 by omega]

/-- At a repetition. -/
theorem silentCalls_again (h : n % 6 = 5) (hn : n + 1 < w) :
    s.silentCalls w (n + 1) = s.silentCalls w n ++ s.againCalls := by
  rw [silentCalls, silentCalls, if_pos hn, if_pos (by omega),
    show (n + 1) / 6 = n / 6 + 1 by omega, List.replicate_succ']
  simp

/-- The loss comes between two repetitions. -/
theorem silentCalls_lost (h : (n + 1) % 6 ≠ 0) : s.silentCalls (n + 1) (n + 1)
    = s.silentCalls (n + 1) n ++ [.wdTimeout, .sendSerialTelegram s.lastTelegram] := by
  rw [silentCalls, silentCalls, if_neg (lt_irrefl _), if_pos (Nat.lt_succ_self n),
    show (n + 1) / 6 = n / 6 by omega, Nat.sub_self]
  simp

/-- After the loss. -/
theorem silentCalls_later (m : ℕ) : s.silentCalls w (w + m)
    = s.silentCalls w w ++ (List.replicate (m / 6) s.againCalls).flatten := by
  rw [silentCalls, silentCalls, if_neg (by omega), if_neg (by omega), Nat.add_sub_cancel_left,
    Nat.sub_self]
  simp

/-- The state after the loss. -/
theorem silent_later (m : ℕ) : s.silent w (w + m)
    = s.still (m % 6) ⟨0, false⟩ true (s.calls ++ s.silentCalls w (w + m)) := by
  rw [silent, if_neg (by omega), Nat.add_sub_cancel_left]

/-- A round after the loss. -/
theorem silent_round_later (h : Launched s w) (m : ℕ) (b : (ℕ → UInt8) × List (ℕ → UInt8)) :
    exec Abcc.step (s.silent w (w + m)) (silentRound b) = some (s.silent w (w + (m + 1))) := by
  have hw : (⟨0, false⟩ : OneTimerEntry).run 10 = (⟨0, false⟩, false) := rfl
  rw [silent_later, silent_later, silentCalls_later, silentCalls_later]
  by_cases hsix : m % 6 = 5
  · rw [hsix, h.round_again hw b, show (m + 1) % 6 = 0 by omega,
      show (m + 1) / 6 = m / 6 + 1 by omega, List.replicate_succ']
    simp
  · rw [h.round_quiet (by omega) hw b, show (m + 1) % 6 = m % 6 + 1 by omega,
      show (m + 1) / 6 = m / 6 by omega]

/-- **Round.** -/
theorem silent_round (h : Launched s w) (n : ℕ) (b : (ℕ → UInt8) × List (ℕ → UInt8)) :
    exec Abcc.step (s.silent w n) (silentRound b) = some (s.silent w (n + 1)) := by
  have hle := h.le
  by_cases hbefore : n + 1 < w
  · have hw := OneTimerEntry.run_of_gt (show 10 < 10 * w - 10 * n by omega) (by omega)
    rw [show 10 * w - 10 * n - 10 = 10 * w - 10 * (n + 1) by omega] at hw
    rw [silent, silent, if_pos (by omega), if_pos (by omega)]
    by_cases hsix : n % 6 = 5
    · rw [hsix, h.round_again hw b, show (n + 1) % 6 = 0 by omega,
        silentCalls_again hsix (by omega), List.append_assoc]
    · rw [h.round_quiet (by omega) hw b, show (n + 1) % 6 = n % 6 + 1 by omega,
        silentCalls_quiet hsix (by omega)]
  by_cases hlost : n + 1 = w
  · subst hlost
    have hw : (⟨10, true⟩ : OneTimerEntry).run 10 = (⟨0, true⟩, true) := rfl
    have hbefore : s.silent (n + 1) n = s.still (n % 6) ⟨10, true⟩
        s.apdr.fAbccWdToOccured (s.calls ++ s.silentCalls (n + 1) n) := by
      rw [silent, if_pos (Nat.lt_succ_self n), show 10 * (n + 1) - 10 * n = 10 by omega]
      rfl
    have hafter : s.silent (n + 1) (n + 1)
        = s.still 0 ⟨0, false⟩ true (s.calls ++ s.silentCalls (n + 1) (n + 1)) := silent_later 0
    have hapart := h.apart
    rw [hbefore, hafter, h.round_lost (by omega) hw b, silentCalls_lost hapart, List.append_assoc]
    rfl
  · obtain ⟨m, rfl⟩ : ∃ m, n = w + m := ⟨n - w, by omega⟩
    exact silent_round_later h m b

/-- Before any round. -/
theorem silent_zero (h : Launched s w) : s.silent w 0 = s := by
  have hcalls : s.calls ++ s.silentCalls w 0 = s.calls := by
    rw [silentCalls, if_pos h.pos]
    exact List.append_nil _
  rw [silent, if_pos h.pos, hcalls]
  dsimp only [still]
  rw [show (⟨UInt16.ofNat (10 * w - 10 * 0), true⟩ : OneTimerEntry) = s.abccWdTimer from
      h.watchdog.symm,
    show (⟨UInt16.ofNat (60 - 10 * (0 % 6)), true⟩ : OneTimerEntry) = s.telegramToTimer from
      h.telegram.symm]

end Abcc

/-- **Silence.**  After any number of rounds, each a tick of 10 ms and then one run of the loop or
more, the same telegram has gone out again every 60 ms, and the loss of the module has been reported
when the watchdog has run out, once, with the telegram at the same time and every 60 ms from then;
nothing else has changed but the timers. -/
theorem abcc_silence (s : Abcc) (w : ℕ) (h : Launched s w)
    (rounds : List ((ℕ → UInt8) × List (ℕ → UInt8))) :
    exec Abcc.step s (rounds.flatMap silentRound) = some (s.silent w rounds.length) := by
  induction rounds using List.reverseRecOn with
  | nil => exact congrArg some (Abcc.silent_zero h).symm
  | append_singleton rounds b ih =>
    rw [List.flatMap_append, exec_append ih, List.flatMap_singleton, List.length_append]
    exact Abcc.silent_round h rounds.length b

set_option maxRecDepth 20000 in
/-- The first telegram is one. -/
theorem launched_firstTelegram : ∃ s, exec Abcc.step (Abcc.boot fun _ _ => 0) firstTelegram = some s ∧
    Launched s 500 := by
  refine ⟨_, rfl, ?_⟩
  constructor
  case pos => decide
  case le => decide
  case apart => decide
  all_goals rfl

/-- Six seconds of silence behind the first telegram. -/
theorem abcc_silence_first : ∃ s,
    exec Abcc.step (Abcc.boot fun _ _ => 0) firstTelegram = some s ∧
    exec Abcc.step s ((List.replicate 600 (fun _ => 0, [])).flatMap silentRound)
      = some (s.silent 500 600) := by
  obtain ⟨s, hs, hl⟩ := launched_firstTelegram
  have hsilent := abcc_silence s 500 hl (List.replicate 600 (fun _ => 0, []))
  rw [List.length_replicate] at hsilent
  exact ⟨s, hs, hsilent⟩

/-- The module is silent for six seconds, and then answers. -/
def lostAndFound : List AbccOp :=
  firstTelegram ++ (List.replicate 600 (fun _ => 0, [])).flatMap silentRound ++
    [.received (moduleTelegram [0xA0]), .run fun _ => 0]

/-- The loss, and then the recovery. -/
theorem abcc_alarms_lostAndFound : ∃ s,
    exec Abcc.step (Abcc.boot fun _ _ => 0) lostAndFound = some s ∧ s.alarms = [true, false] ∧
    InTurn s.apdr.fAbccWdToOccured s.alarms := by
  have halarms : (exec Abcc.step (Abcc.boot fun _ _ => 0) lostAndFound).map Abcc.alarms
      = some [true, false] := by
    decide +kernel
  obtain ⟨s, hs, halarms⟩ := Option.map_eq_some_iff.mp halarms
  exact ⟨s, hs, halarms, abcc_alarms_alternate _ lostAndFound s hs⟩

end Start01
