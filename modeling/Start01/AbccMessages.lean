/-
Start01/AbccMessages.lean

Messages over the data link.  The telegrams sent carry the messages begun, in fragments, one after
another (`Outgoing`); the telegrams accepted are put together to the messages delivered
(`Incoming`).  With the places of the buffers and the alternation of telegrams this is the
invariant `Inv` of the link, which every round of the loop keeps (`Inv.move`).
-/
import Start01.AbccInvariant

namespace Start01

open Scatter Link Fragment Toggle

/-! ### Messages to the module -/

/-- What a receiver makes of the telegrams sent. -/
def built (sent : List (List UInt8)) : Collected UInt8 := reassemble (sent.map sentPart)

theorem built_concat (sent : List (List UInt8)) (t : List UInt8) :
    built (sent ++ [t]) = collect (built sent) (sentPart t) := by
  rw [built, List.map_append]
  exact reassemble_concat _ _

/-- The telegrams sent and the messages begun, in a state, with the message in hand. -/
inductive Outgoing (sent begun : List (List UInt8)) : ApdrState → Option BufMsg → Prop
  | between {e : ApdrState} : e ≠ .sendTelegramWithMessage → (built sent).part = [] →
      List.Forall₂ (Carries 16) (built sent).done begun → Outgoing sent begun e none
  | during {e : ApdrState} {b : BufMsg} (ms : List (List UInt8)) :
      (e = .sendTelegramWithMessage ∧ b.bFragCounter.toNat < b.bNbrOfFragments.toNat ∨
        (e = .waitForTelegram ∨ e = .abccComLost ∨ e = .processReceivedTelegram) ∧
          0 < b.bFragCounter.toNat) →
      begun = ms ++ [msgBytes b.sMsg] → List.Forall₂ (Carries 16) (built sent).done ms →
      Partial 16 (msgBytes b.sMsg) (built sent).part b.bFragCounter.toNat →
      b.bNbrOfFragments.toNat = fragsOf b.sMsg →
      b.bFragCounter.toNat ≤ b.bNbrOfFragments.toNat → RemapOk b.sMsg →
      Outgoing sent begun e (some b)
  | closing (m : List UInt8) (ms : List (List UInt8)) : begun = ms ++ [m] →
      List.Forall₂ (Carries 16) (built sent).done ms → Carries 16 (built sent).part m →
      (built sent).part ≠ [] → Outgoing sent begun .sendTelegramWithoutMessage none

theorem forall₂_concat {α β : Type*} {R : α → β → Prop} {as : List α} {bs : List β} {a : α} {b : β}
    (h : List.Forall₂ R as bs) (hab : R a b) : List.Forall₂ R (as ++ [a]) (bs ++ [b]) :=
  List.rel_append h (.cons hab .nil)

namespace Outgoing

variable {sent begun : List (List UInt8)} {e : ApdrState} {b : BufMsg} {o : Option BufMsg}

/-- Nothing is in hand where nothing has been begun. -/
theorem idle (h : Outgoing sent begun e o)
    (he : e = .init ∨ e = .initialHandshake ∨ e = .idle) : o = none ∧
      (built sent).part = [] ∧ List.Forall₂ (Carries 16) (built sent).done begun := by
  cases h with
  | between _ hpart hdone => exact ⟨rfl, hpart, hdone⟩
  | during ms hstate =>
    rcases he with rfl | rfl | rfl <;> simp at hstate
  | closing m ms => simp at he

/-- It stays so in another state. -/
theorem rest {e' : ApdrState} (h : Outgoing sent begun e o)
    (he : e = .init ∨ e = .initialHandshake ∨ e = .idle) (hne : e' ≠ .sendTelegramWithMessage) :
    Outgoing sent begun e' none := by
  obtain ⟨-, hpart, hdone⟩ := h.idle he
  exact .between hne hpart hdone

theorem fetch (h : Outgoing sent begun .idle o) (hb : Waiting b) :
    Outgoing sent (begun ++ [msgBytes b.sMsg]) .sendTelegramWithMessage (some b) := by
  obtain ⟨-, hpart, hdone⟩ := h.idle (.inr (.inr rfl))
  have hcount : b.bFragCounter.toNat = 0 := by rw [hb.counter]; rfl
  have hpos : 0 < b.bNbrOfFragments.toNat := by
    rw [hb.frags, fragsOf, msgLength, sizeofMsgHeader]
    omega
  refine .during begun (.inl ⟨rfl, ?_⟩) rfl hdone ?_ hb.frags ?_ hb.remap
  · rw [hcount]
    exact hpos
  · rw [hpart, hcount]
    exact partial_zero 16 _
  · rw [hcount]
    exact Nat.zero_le _

/-- The piece of the message that a fragment is. -/
theorem take_fragment (b : BufMsg) (behind : ℕ → UInt8) :
    (fragment b behind).take ((msgBytes b.sMsg).length - 16 * b.bFragCounter.toNat)
      = ((msgBytes b.sMsg).drop (16 * b.bFragCounter.toNat)).take 16 := by
  have hlen := length_msgBytes b.sMsg
  have hsmall := (b.sMsg 5).toNat_lt
  apply List.ext_getElem?
  intro i
  rw [List.getElem?_take, List.getElem?_take, List.getElem?_drop]
  by_cases hi : i < 16
  · by_cases hin : i < (msgBytes b.sMsg).length - 16 * b.bFragCounter.toNat
    · rw [if_pos hin, if_pos hi, fragment, getElem?_chkBytes _ _ hi, msgBytes,
        getElem?_chkBytes _ _ (by
          rw [hlen] at hin
          rw [msgLength, sizeofMsgHeader, bDataSize]
          omega), Nat.zero_add, if_pos (by omega), Nat.mul_comm]
    · rw [if_neg hin, if_pos hi, List.getElem?_eq_none (by omega)]
  · rw [if_neg hi]
    split
    · rw [fragment, List.getElem?_eq_none (by rw [length_chkBytes]; omega)]
    · rfl

theorem fragment {behind : ℕ → UInt8} {t : List UInt8}
    (h : Outgoing sent begun .sendTelegramWithMessage (some b))
    (ht : sentPart t = some (Link.fragment b behind)) :
    Outgoing (sent ++ [t]) begun .waitForTelegram
      (some { b with bFragCounter := b.bFragCounter + 1 }) := by
  cases h with
  | during ms hstate hbegun hdone hpart hfrags _ hremap =>
    have hlt : b.bFragCounter.toNat < b.bNbrOfFragments.toNat := by
      rcases hstate with ⟨-, hlt⟩ | ⟨hstate, -⟩
      · exact hlt
      · simp at hstate
    have hnext : (b.bFragCounter + 1).toNat = b.bFragCounter.toNat + 1 := by
      have hbound := b.bNbrOfFragments.toNat_lt
      rw [UInt8.toNat_add]
      exact Nat.mod_eq_of_lt (by
        show _ + 1 < 256
        omega)
    have hbuilt : built (sent ++ [t])
        = ⟨(built sent).done, (built sent).part ++ Link.fragment b behind⟩ := by
      rw [built_concat, ht]
      rfl
    refine .during ms (.inr ⟨.inl rfl, ?_⟩) hbegun (hbuilt ▸ hdone) ?_ hfrags ?_ hremap
    · show 0 < (b.bFragCounter + 1).toNat
      rw [hnext]
      exact Nat.succ_pos _
    · rw [hbuilt]
      show Partial 16 _ _ (b.bFragCounter + 1).toNat
      rw [hnext]
      exact hpart.step (length_chkBytes _ _ _) (take_fragment b behind)
    · show (b.bFragCounter + 1).toNat ≤ _
      rw [hnext]
      exact hlt

theorem plain {t : List UInt8} (h : Outgoing sent begun .sendTelegramWithoutMessage o)
    (ht : sentPart t = none) : o = none ∧ Outgoing (sent ++ [t]) begun .waitForTelegram none := by
  cases h with
  | between _ hpart hdone =>
    have hbuilt : built (sent ++ [t]) = built sent := by
      rw [built_concat, ht]
      exact if_pos hpart
    exact ⟨rfl, .between (by decide) (hbuilt ▸ hpart) (hbuilt ▸ hdone)⟩
  | during ms hstate => simp at hstate
  | closing m ms hbegun hdone hpart hne =>
    -- the telegram without a fragment ends the message
    have hbuilt : built (sent ++ [t]) = ⟨(built sent).done ++ [(built sent).part], []⟩ := by
      rw [built_concat, ht]
      exact if_neg hne
    refine ⟨rfl, .between (by decide) (hbuilt ▸ rfl) ?_⟩
    rw [hbuilt, hbegun]
    exact forall₂_concat hdone hpart

/-- A telegram is waited for, or has come. -/
theorem waiting {e' : ApdrState} (h : Outgoing sent begun e o)
    (he : e = .waitForTelegram ∨ e = .abccComLost)
    (he' : e' = .waitForTelegram ∨ e' = .abccComLost ∨ e' = .processReceivedTelegram) :
    Outgoing sent begun e' o := by
  cases h with
  | between _ hpart hdone =>
    exact .between (by rcases he' with rfl | rfl | rfl <;> decide) hpart hdone
  | during ms hstate hbegun hdone hpart hfrags hle hremap =>
    refine .during ms (.inr ⟨he', ?_⟩) hbegun hdone hpart hfrags hle hremap
    rcases hstate with ⟨hstate, -⟩ | ⟨-, hpos⟩
    · rcases he with rfl | rfl <;> cases hstate
    · exact hpos
  | closing m ms => simp at he

/-- In the middle of a message, more of it is to be sent, or all has been sent. -/
theorem open_or_done (h : Outgoing sent begun .processReceivedTelegram (some b)) :
    (Open b ∧ Outgoing sent begun .sendTelegramWithMessage (some b)) ∨
      (¬ Open b ∧ Done b ∧ Outgoing sent begun .sendTelegramWithoutMessage none) := by
  cases h with
  | during ms hstate hbegun hdone hpart hfrags hle hremap =>
    have hne : b.bNbrOfFragments ≠ 0 := by
      intro h0
      rw [h0, fragsOf, msgLength, sizeofMsgHeader] at hfrags
      have hzero : (0 : UInt8).toNat = 0 := rfl
      omega
    have hpos : 0 < b.bFragCounter.toNat := by
      rcases hstate with ⟨hstate, -⟩ | ⟨-, hpos⟩
      · cases hstate
      · exact hpos
    rcases Nat.lt_or_eq_of_le hle with hlt | heq
    · exact .inl ⟨⟨hne, UInt8.lt_iff_toNat_lt.mpr hlt⟩,
        .during ms (.inl ⟨rfl, hlt⟩) hbegun hdone hpart hfrags hle hremap⟩
    · have hdone' : Done b := ⟨hne, UInt8.toNat_inj.mp heq⟩
      refine .inr ⟨fun ho => ?_, hdone', .closing _ ms hbegun hdone ?_ ?_⟩
      · exact absurd (UInt8.lt_iff_toNat_lt.mp ho.2) (by omega)
      · rw [heq, hfrags, fragsOf] at hpart
        have hlen := length_msgBytes b.sMsg
        have hmsg : msgLength b.sMsg = 8 + (b.sMsg 5).toNat := rfl
        exact hpart.carries (by omega) (by omega)
      · intro hnil
        have hlen := hpart.length_eq
        rw [hnil, List.length_nil] at hlen
        omega

theorem remapOk (h : Outgoing sent begun e (some b)) : RemapOk b.sMsg := by
  cases h with
  | during ms _ _ _ _ _ _ hremap => exact hremap

/-- All messages begun, but for the last. -/
theorem messages (h : Outgoing sent begun e o) : ∃ ms, (begun = ms ∨ ∃ m, begun = ms ++ [m]) ∧
    List.Forall₂ (Carries 16) (built sent).done ms := by
  cases h with
  | between _ _ hdone => exact ⟨begun, .inl rfl, hdone⟩
  | during ms _ hbegun hdone => exact ⟨ms, .inr ⟨_, hbegun⟩, hdone⟩
  | closing m ms hbegun hdone => exact ⟨ms, .inr ⟨m, hbegun⟩, hdone⟩

/-- Where more of a message is to be sent, it is in hand. -/
theorem isOpen (h : Outgoing sent begun .sendTelegramWithMessage o) : ∃ b, o = some b ∧ Open b := by
  cases h with
  | between hne => exact absurd rfl hne
  | during ms hstate =>
    rcases hstate with ⟨-, hlt⟩ | ⟨hstate, -⟩
    · refine ⟨_, rfl, fun h0 => ?_, UInt8.lt_iff_toNat_lt.mpr hlt⟩
      rw [h0] at hlt
      exact absurd hlt (Nat.not_lt_zero _)
    · simp at hstate

end Outgoing

/-! ### Messages of the module -/

/-- The last of the bytes of a message of length `n` that were written at `i`: after 65536
fragments, of 16 bytes each, their count starts again. -/
def lastAt (n i : ℕ) : ℕ := i + 1048576 * ((n - 1 - i) / 1048576)

/-- What the driver makes of the fragments of a message: the header, and as much data as it says,
each byte as it was sent last for its place.  A byte that was not sent may be any. -/
def Extracted (a d : List UInt8) : Prop :=
  d.length = 8 + (d.getD 5 0).toNat ∧ ∀ i < d.length, i < a.length → d[i]? = a[lastAt a.length i]?

/-- The telegrams done with, put together. -/
def gathered (got : List (ℕ → UInt8)) : Collected UInt8 := reassemble (got.map gotPart)

theorem gathered_concat (got : List (ℕ → UInt8)) (y : ℕ → UInt8) :
    gathered (got ++ [y]) = collect (gathered got) (gotPart y) := by
  rw [gathered, List.map_append]
  exact reassemble_concat _ _

/-- A byte of a new fragment is the last for its place. -/
theorem lastAt_new {k i : ℕ} (hlow : 16 * (k % 65536) ≤ i) (hhigh : i < 16 * (k % 65536) + 16) :
    lastAt (16 * (k + 1)) i = 16 * k + (i - 16 * (k % 65536)) := by
  have hk := Nat.div_add_mod k 65536
  have hround : (16 * (k + 1) - 1 - i) / 1048576 = k / 65536 := by omega
  rw [lastAt, hround]
  omega

/-- A new fragment leaves the other places as they are. -/
theorem lastAt_old {k i : ℕ} (hi : i < 16 * k)
    (hout : i < 16 * (k % 65536) ∨ 16 * (k % 65536) + 16 ≤ i) (hsmall : i < 263) :
    lastAt (16 * (k + 1)) i = lastAt (16 * k) i ∧ lastAt (16 * k) i < 16 * k := by
  have hk := Nat.div_add_mod k 65536
  have hround : (16 * (k + 1) - 1 - i) / 1048576 = (16 * k - 1 - i) / 1048576 := by omega
  rw [lastAt, lastAt, hround]
  refine ⟨rfl, ?_⟩
  omega

/-- The message in `abMessage`, as far as it has come. -/
structure Gathering (part : List UInt8) (iNbrRecFrags : UInt16) (abMessage : ℕ → UInt8) (k : ℕ) :
    Prop where
  length_eq : part.length = 16 * k
  count : iNbrRecFrags = UInt16.ofNat k
  bytes : ∀ i < 263, i < 16 * k → some (abMessage i) = part[lastAt (16 * k) i]?

theorem Gathering.nil (abMessage : ℕ → UInt8) : Gathering [] 0 abMessage 0 :=
  ⟨rfl, rfl, fun _ _ hi => absurd hi (Nat.not_lt_zero _)⟩

/-- One more fragment. -/
theorem Gathering.keep {v : Link} {part : List UInt8} {k : ℕ}
    (h : Gathering part v.iNbrRecFrags v.abMessage k) :
    Gathering (part ++ chkBytes v.pbReceptionBuffer 1 16) v.keep.iNbrRecFrags v.keep.abMessage
      (k + 1) where
  length_eq := by rw [List.length_append, length_chkBytes, h.length_eq, Nat.mul_succ]
  count := by
    show v.iNbrRecFrags + 1 = _
    rw [h.count]
    exact (UInt16.ofNat_add k 1).symm
  bytes := by
    intro i hi hik
    have hlen := h.length_eq
    have hn : v.iNbrRecFrags.toNat = k % 65536 := by
      rw [h.count, UInt16.toNat_ofNat']
    show some (scatter v.abMessage (fun i => v.iNbrRecFrags.toNat * 16 + i) _ _ i) = _
    rw [hn]
    by_cases hnew : 16 * (k % 65536) ≤ i ∧ i < 16 * (k % 65536) + 16
    · -- a byte of the fragment
      obtain ⟨j, rfl⟩ : ∃ j, i = k % 65536 * 16 + j := ⟨i - 16 * (k % 65536), by omega⟩
      rw [lastAt_new hnew.1 hnew.2, List.getElem?_append_right (by omega), hlen,
        getElem?_chkBytes _ _ (by omega), scatter_apply (g := fun i => k % 65536 * 16 + i)
          (by split_ifs <;> omega) (fun l _ hl => by omega)]
      congr 2
      omega
    · obtain ⟨hsame, hlt⟩ := lastAt_old (k := k) (i := i) (by omega) (by omega) hi
      rw [hsame, List.getElem?_append_left (by omega),
        scatter_of_forall_ne (fun j hj => by split_ifs at hj <;> omega)]
      exact h.bytes i hi (by omega)

/-- The message is handed on as the module has sent it. -/
theorem Gathering.extracted {v : Link} {part : List UInt8} {k : ℕ}
    (h : Gathering part v.iNbrRecFrags v.abMessage k) (old : ℕ → UInt8) :
    Extracted part (msgBytes (v.message old)) := by
  have hlen := h.length_eq
  have hlt := (v.abMessage 5).toNat_lt
  have hmsg : msgLength v.abMessage = 8 + (v.abMessage 5).toNat := rfl
  have hcopy : ∀ i < 8 + (v.abMessage 5).toNat, v.message old i = v.abMessage i := by
    intro i hi
    rw [message, hmsg]
    exact scatter_apply (g := fun i => i) (by omega) fun j _ hj => hj
  have hbyte : ∀ i < 8 + (v.abMessage 5).toNat,
      (chkBytes v.abMessage 0 (8 + (v.abMessage 5).toNat))[i]? = some (v.abMessage i) := by
    intro i hi
    rw [getElem?_chkBytes _ _ hi, Nat.zero_add]
  rw [msgBytes_congr hcopy, msgBytes, hmsg]
  refine ⟨?_, fun i hi hik => ?_⟩
  · rw [length_chkBytes, List.getD_eq_getElem?_getD, hbyte 5 (by omega), Option.getD_some]
  · rw [length_chkBytes] at hi
    rw [hbyte i hi, hlen]
    exact h.bytes i (by omega) (by omega)

/-- What has come in: the bit that tells of an open message, what is in the reception buffer, and what has
been delivered. -/
structure Incoming (v : Link) : Prop where
  message : mBit v.bLastStatusReg = true ↔ (gathered (processed v)).part ≠ []
  gathering : ∃ k, Gathering (gathered (processed v)).part v.iNbrRecFrags v.abMessage k
  delivered : List.Forall₂ Extracted (gathered (processed v)).done v.delivered

namespace Incoming

variable {v : Link}

/-- The states change, and no telegram of the module is done with. -/
theorem goto (h : Incoming v) {e : ApdrState} (hp : v.eState ≠ .processReceivedTelegram)
    (he : e ≠ .processReceivedTelegram) : Incoming { v with eState := e } := by
  have hsame : processed { v with eState := e } = processed v := by
    rw [processed_of_ne he, processed_of_ne hp]
  constructor
  · rw [hsame]
    exact h.message
  · rw [hsame]
    exact h.gathering
  · rw [hsame]
    exact h.delivered

theorem accept (h : Incoming v) (hs : v.eState = .waitForTelegram) : Incoming v.accept := by
  have hsame : processed v.accept = processed v := by
    rw [processed_of_concat (v := v.accept) rfl rfl, processed_of_ne (by rw [hs]; decide)]
  constructor
  · rw [hsame]
    exact h.message
  · rw [hsame]
    exact h.gathering
  · rw [hsame]
    exact h.delivered

/-- A telegram is done with, and what there is of messages is right. -/
theorem next {c : Collected UInt8}
    (hc : gathered v.got = c) (hmsg : mBit v.bCurrentStatusReg = true ↔ c.part ≠ [])
    (hk : ∃ k, Gathering c.part v.iNbrRecFrags v.abMessage k)
    (hd : List.Forall₂ Extracted c.done v.delivered) : Incoming v.next := by
  have hproc : processed v.next = v.got := by
    have hgot : v.next.got = v.got := by rw [next_eq]
    rw [processed_of_ne, hgot]
    rcases v.next_eState with hs | hs | hs <;> rw [hs] <;> decide
  have hlast : v.next.bLastStatusReg = v.bCurrentStatusReg := by rw [next_eq]
  constructor
  · rw [hproc, hc, hlast]
    exact hmsg
  · rw [hproc, hc]
    rw [next_eq]
    exact hk
  · rw [hproc, hc]
    rw [next_eq]
    exact hd

/-- Before the first telegram of the module there is nothing of a message. -/
theorem empty (hproc : processed v = []) (hlast : mBit v.bLastStatusReg = false)
    (hrec : v.iNbrRecFrags = 0) (hd : List.Forall₂ Extracted [] v.delivered) : Incoming v := by
  constructor
  · rw [hproc, hlast]
    exact ⟨fun hc => absurd hc (by decide), fun hc => absurd rfl hc⟩
  · rw [hproc, hrec]
    exact ⟨0, .nil _⟩
  · rw [hproc]
    exact hd

/-- What has been put together before the telegram that is to be done with. -/
theorem current (h : Incoming v) (hphase : Phase v) (hs : v.eState = .processReceivedTelegram) :
    ∃ c, gathered v.got = collect c (if mBit v.bCurrentStatusReg then
        some (chkBytes v.pbReceptionBuffer 1 16) else none) ∧
      (mBit v.bLastStatusReg = true ↔ c.part ≠ []) ∧
      (∃ k, Gathering c.part v.iNbrRecFrags v.abMessage k) ∧
      List.Forall₂ Extracted c.done v.delivered := by
  obtain ⟨gs, y, hgot, hcur, hrx⟩ := hphase.current hs
  have hproc := processed_of_concat hs hgot
  have hpart : gotPart y = if mBit v.bCurrentStatusReg then
      some (chkBytes v.pbReceptionBuffer 1 16) else none := by
    rw [gotPart, ← hcur]
    split
    · rename_i hmsg
      rw [hrx hmsg]
    · rfl
  refine ⟨gathered gs, ?_, hproc ▸ h.message, hproc ▸ h.gathering, hproc ▸ h.delivered⟩
  rw [hgot, gathered_concat, hpart]

theorem keepFragment (h : Incoming v) (hphase : Phase v)
    (hs : v.eState = .processReceivedTelegram) (hmsg : mBit v.bCurrentStatusReg = true) :
    Incoming v.keep.next := by
  obtain ⟨c, hc, -, ⟨k, hk⟩, hd⟩ := h.current hphase hs
  rw [if_pos hmsg] at hc
  refine next (v := v.keep) hc ⟨fun _ => ?_, fun _ => hmsg⟩ ⟨k + 1, hk.keep⟩ hd
  exact List.append_ne_nil_of_right_ne_nil _ (List.cons_ne_nil _ _)

theorem noFragment (h : Incoming v) (hphase : Phase v)
    (hs : v.eState = .processReceivedTelegram) (hmsg : mBit v.bCurrentStatusReg = false)
    (hlast : mBit v.bLastStatusReg = false) : Incoming v.next := by
  obtain ⟨c, hc, hm, hk, hd⟩ := h.current hphase hs
  have hnil : c.part = [] := by
    by_contra hne
    rw [hm.mpr hne] at hlast
    cases hlast
  have hsame : gathered v.got = c := by
    rw [hc, hmsg]
    exact if_pos hnil
  refine next hsame ⟨fun hcur => ?_, fun hne => absurd hnil hne⟩ hk hd
  rw [hmsg] at hcur
  cases hcur

/-- The telegram without a fragment ends the message. -/
theorem endOfMessage (h : Incoming v) (hphase : Phase v)
    (hs : v.eState = .processReceivedTelegram) (hmsg : mBit v.bCurrentStatusReg = false)
    (hlast : mBit v.bLastStatusReg = true) (r : BufRef) (q : OneQueueEntry BufRef) :
    Incoming (v.deliver r q).next := by
  obtain ⟨c, hc, hm, ⟨k, hk⟩, hd⟩ := h.current hphase hs
  have hne : c.part ≠ [] := hm.mp hlast
  have hdone : gathered v.got = ⟨c.done ++ [c.part], []⟩ := by
    rw [hc, hmsg]
    exact if_neg hne
  refine next (v := v.deliver r q) hdone ⟨fun hcur => ?_, fun hnil => absurd rfl hnil⟩
    ⟨0, .nil _⟩ (forall₂_concat hd (hk.extracted _))
  have hcur' : mBit v.bCurrentStatusReg = true := hcur
  rw [hmsg] at hcur'
  cases hcur'

end Incoming

/-! ### The invariant -/

/-- The message in hand. -/
def writing (v : Link) : Option BufMsg := v.psWriteMsgBuffer.map v.buf

/-- The invariant of the link. -/
structure Inv (v : Link) : Prop where
  stored : ∃ ls, Stored v ls v.psWriteMsgBuffer.toList
  phase : Phase v
  outgoing : Outgoing v.sent v.begun v.eState (writing v)
  incoming : Incoming v

namespace Inv

variable {v v' : Link}

/-- What the end of a telegram does to the buffers and to the message in hand. -/
theorem next_parts {ls : Pool → List BufRef} (hstored : Stored v ls v.psWriteMsgBuffer.toList)
    (hout : Outgoing v.sent v.begun .processReceivedTelegram (writing v)) :
    (∃ ls, Stored v.next ls v.next.psWriteMsgBuffer.toList) ∧
      Outgoing v.next.sent v.next.begun v.next.eState (writing v.next) := by
  have hturn : ∀ w : Link, (∃ ls, Stored w ls w.psWriteMsgBuffer.toList) →
      Outgoing w.sent w.begun w.eState (writing w) → v.turn = w →
      (∃ ls, Stored v.next ls v.next.psWriteMsgBuffer.toList) ∧
        Outgoing v.next.sent v.next.begun v.next.eState (writing v.next) := by
    rintro w ⟨ls', hls'⟩ hw rfl
    exact ⟨⟨ls', { hls' with }⟩, hw⟩
  unfold writing at hout
  cases hr : v.psWriteMsgBuffer with
  | none =>
    rw [hr] at hstored hout
    refine hturn { v with eState := .idle } ⟨ls, ?_⟩ ?_ (by simp only [turn, hr])
    · rw [hr]
      exact { hstored with }
    · rw [writing, hr]
      cases hout with
      | between _ hpart hdone => exact .between (fun hc => by cases hc) hpart hdone
  | some r =>
    rw [hr] at hstored hout
    rcases hout.open_or_done with ⟨hopen, hout'⟩ | ⟨hopen, hdone, hout'⟩
    · refine hturn { v with eState := .sendTelegramWithMessage } ⟨ls, ?_⟩ ?_ ?_
      · rw [hr]
        exact { hstored with }
      · rw [writing, hr]
        exact hout'
      · simp only [turn, hr]
        rw [if_pos hopen]
    · refine hturn { v.putBuf r { v.buf r with
        bNbrOfFragments := 0, bFragCounter := 0, fEntryUsed := false } with
        psWriteMsgBuffer := none
        eState := .sendTelegramWithoutMessage } ⟨ls, ?_⟩ hout' ?_
      · exact { hstored.free rfl with }
      · simp only [turn, hr]
        rw [if_neg hopen, if_pos hdone]

/-- A message is complete and goes to the application. -/
theorem deliver_parts {ls : Pool → List BufRef} {r : BufRef} {q : OneQueueEntry BufRef}
    (hstored : Stored v ls v.psWriteMsgBuffer.toList) (hpool : r.pool = .msgToAppl)
    (hlt : r.entry < r.pool.length) (hfree : (v.buf r).fEntryUsed = false)
    (hadd : (v.queue .msgToAppl).add r = some q) :
    (∃ ls, Stored (v.deliver r q) ls v.psWriteMsgBuffer.toList) ∧
      writing (v.deliver r q) = writing v := by
  constructor
  · have halloc := hstored.allocate (b := { v.buf r with
      sMsg := v.message (v.buf r).sMsg, fEntryUsed := true }) hfree hlt rfl
    obtain ⟨q', hadd', hdeliver⟩ := halloc.deliver hpool
    obtain rfl := Option.some.inj (hadd'.symm.trans hadd)
    rw [putBuf_buf] at hdeliver
    exact ⟨_, { hdeliver with }⟩
  · unfold writing
    show v.psWriteMsgBuffer.map _ = _
    cases hw : v.psWriteMsgBuffer with
    | none => rfl
    | some r' =>
      -- the message in hand is in a buffer that is used
      have hused : (v.buf r').fEntryUsed = true :=
        hstored.queued.used_of_held (by rw [hw]; exact List.mem_singleton_self r')
      have hne : r' ≠ r := by
        rintro rfl
        rw [hused] at hfree
        cases hfree
      exact congrArg some (Function.update_of_ne hne _ _)

/-- A message is begun. -/
theorem fetch_parts {ls : Pool → List BufRef} {p : Pool} {r : BufRef} {q : OneQueueEntry BufRef}
    (hstored : Stored v ls []) (hp : p ≠ .msgToAppl)
    (hfirst : (v.queue p).getFirst = some (some r, q)) :
    (∃ ls, Stored (v.fetch p r q) ls [r]) ∧ Waiting (v.buf r) := by
  cases hl : ls p with
  | nil =>
    rw [hstored.queued.getFirst_eq_none hl] at hfirst
    cases hfirst
  | cons r' l =>
    obtain ⟨q', hfirst', hbegin⟩ := hstored.begin_ hp hl
    obtain ⟨heq, rfl⟩ := Prod.mk.inj (Option.some.inj (hfirst'.symm.trans hfirst))
    obtain rfl := Option.some.inj heq
    exact ⟨⟨_, { hbegin with }⟩, (hstored.waiting p hp r' (hl ▸ List.mem_cons_self)).1⟩

/-- **Step.** -/
theorem move (h : Inv v) (hmove : Move v v') : Inv v' := by
  obtain ⟨⟨ls, hls⟩, hphase, hout, hin⟩ := h
  have hphase' := hphase.move hmove
  cases hmove with
  | stay => exact ⟨⟨ls, hls⟩, hphase, hout, hin⟩
  | init hs =>
    have hw : v.psWriteMsgBuffer = none := Option.map_eq_none_iff.mp (hout.idle (.inl hs)).1
    rw [hw] at hls
    have hgot := hphase.got_eq_nil (.inl hs)
    have hproc : processed v = [] := by rw [processed_of_ne (by rw [hs]; decide), hgot]
    have hd := hin.delivered
    rw [hproc] at hd
    have hzero : mBit 0 = false := by decide
    exact ⟨⟨ls, { hls with }⟩, hphase', hout.rest (.inl hs) (fun hc => by cases hc),
      .empty ((processed_of_ne fun hc => by cases hc).trans hgot) hzero rfl hd⟩
  | ready hs =>
    have hwriting : writing v = none := (hout.idle (.inr (.inl hs))).1
    refine ⟨⟨ls, { hls with }⟩, hphase', ?_, hin.goto (by rw [hs]; decide) (by decide)⟩
    show Outgoing _ _ _ (writing v)
    rw [hwriting]
    exact hout.rest (.inr (.inl hs)) fun hc => by cases hc
  | nothing hs =>
    have hwriting : writing v = none := (hout.idle (.inr (.inr hs))).1
    refine ⟨⟨ls, { hls with }⟩, hphase', ?_, hin.goto (by rw [hs]; decide) (by decide)⟩
    show Outgoing _ _ _ (writing v)
    rw [hwriting]
    exact hout.rest (.inr (.inr hs)) fun hc => by cases hc
  | fetch p r q hs hp hfirst =>
    have hw : v.psWriteMsgBuffer = none := Option.map_eq_none_iff.mp (hout.idle (.inr (.inr hs))).1
    rw [hw] at hls
    obtain ⟨hls', hwait⟩ := fetch_parts hls hp hfirst
    rw [hs] at hout
    have hin' := hin.goto (e := .sendTelegramWithMessage) (by rw [hs]; decide) (by decide)
    exact ⟨hls', hphase', hout.fetch hwait, { hin' with }⟩
  | fragment r behind t hs hr hopen hnew =>
    have hwriting : writing v = some (v.buf r) := by rw [writing, hr, Option.map_some]
    rw [hs, hwriting] at hout
    rw [hr] at hls
    have hin' := hin.goto (e := .waitForTelegram) (by rw [hs]; decide) (by decide)
    refine ⟨⟨ls, ?_⟩, hphase', ?_, { hin' with }⟩
    · show Stored _ ls v.psWriteMsgBuffer.toList
      rw [hr]
      exact { hls.putBuf (b := { v.buf r with bFragCounter := (v.buf r).bFragCounter + 1 }) rfl with }
    · show Outgoing _ _ _ (v.psWriteMsgBuffer.map _)
      rw [hr, Option.map_some]
      show Outgoing _ _ _ (some ((v.putBuf r _).buf r))
      rw [putBuf_buf]
      exact hout.fragment hnew.part_eq
  | plain t hs hnew =>
    rw [hs] at hout
    obtain ⟨hnone, hout'⟩ := hout.plain hnew.part_eq
    have hin' := hin.goto (e := .waitForTelegram) (by rw [hs]; decide) (by decide)
    refine ⟨⟨ls, { hls with }⟩, hphase', ?_, { hin' with }⟩
    show Outgoing _ _ _ (writing v)
    rw [hnone]
    exact hout'
  | accept hs _ ht _ =>
    exact ⟨⟨ls, { hls with }⟩, hphase', hout.waiting (.inl hs) (.inr (.inr rfl)), hin.accept hs⟩
  | ignore hs _ => exact ⟨⟨ls, { hls with }⟩, hphase', hout, { hin with }⟩
  | again hs =>
    have hin' := hin.goto (e := .waitForTelegram)
      (by rcases hs with hs | hs <;> rw [hs] <;> decide) (by decide)
    exact ⟨⟨ls, { hls with }⟩, hphase', hout.waiting hs (.inl rfl), { hin' with }⟩
  | lost hs _ =>
    have hin' := hin.goto (e := .abccComLost) (by rw [hs]; decide) (by decide)
    exact ⟨⟨ls, { hls with }⟩, hphase', hout.waiting (.inl hs) (.inr (.inl rfl)), hin'⟩
  | keep hs hmsg =>
    rw [hs] at hout
    obtain ⟨hls', hout'⟩ := next_parts (v := v.keep) { hls with } hout
    exact ⟨hls', hphase', hout', hin.keepFragment hphase hs hmsg⟩
  | none hs hmsg hlast =>
    rw [hs] at hout
    obtain ⟨hls', hout'⟩ := next_parts hls hout
    exact ⟨hls', hphase', hout', hin.noFragment hphase hs hmsg hlast⟩
  | deliver r q hs hmsg hlast hpool hlt hfree hadd =>
    rw [hs] at hout
    obtain ⟨⟨ls', hdeliver⟩, hwriting⟩ := deliver_parts hls hpool hlt hfree hadd
    obtain ⟨hls', hout'⟩ := next_parts (v := v.deliver r q) hdeliver (hwriting ▸ hout)
    exact ⟨hls', hphase', hout', hin.endOfMessage hphase hs hmsg hlast r q⟩

end Inv

end Start01
