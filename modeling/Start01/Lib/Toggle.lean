/-
Start01/Lib/Toggle.lean

Telegrams with a toggle bit.  A master sends telegrams and a slave answers each of them, over two
lines that keep the order but may lose any telegram.  Every telegram has a bit:

    the master builds a new telegram only when the last one is answered, and turns its bit over,
    and may send the last one again at any time until then;
    the slave takes a telegram as new if its bit differs from that of the last one taken, and
    answers it with its own bit turned over; to any other it may repeat its last answer;
    the master takes an answer as new in the same way.

A reception that the master cannot use takes the place of one that it has not looked at yet.

Main result: `Inv.of_reachable` — what the slave has taken is what the master has built, in order,
but for at most the last telegram, and what the master has taken is what the slave has answered, in
order, but for at most the last answer.  What is on a line is copies of one telegram followed by
copies of the next (`Between`), which the bit tells apart.
-/
import Mathlib.Tactic
import Mathlib.Logic.Relation

namespace Toggle

variable {X Y : Type*}

/-- The bit of telegram number `n`, from 1 on. -/
def bit (n : ℕ) : Bool := n % 2 = 1

theorem bit_succ (n : ℕ) : bit (n + 1) = !bit n := by
  unfold bit
  rcases Nat.mod_two_eq_zero_or_one n with h | h
  · rw [decide_eq_true (by omega), decide_eq_false (by omega), Bool.not_false]
  · rw [decide_eq_false (by omega), decide_eq_true (by omega), Bool.not_true]

theorem bit_succ_ne (n : ℕ) : bit (n + 1) ≠ bit n := by
  rw [bit_succ]
  exact Bool.not_ne_self _

/-- The master, the slave and the two lines. -/
structure Sys (X Y : Type*) where
  /-- What the master has built. -/
  sent : List X
  /-- The answers it has taken. -/
  got : List Y
  /-- The answer it has received and not looked at. -/
  heard : Option Y
  /-- What the slave has taken. -/
  rcvd : List X
  /-- Its answers. -/
  said : List Y
  /-- On the line to the slave, the next to come first. -/
  down : List X
  /-- On the line to the master. -/
  up : List Y

/-- Nothing has been sent. -/
def start : Sys X Y := ⟨[], [], none, [], [], [], []⟩

variable (tx : X → Bool) (ty : Y → Bool)

/-- One step of the master, of the slave or of a line. -/
inductive Step : Sys X Y → Sys X Y → Prop
  | build {s : Sys X Y} (x : X) : s.sent.length = s.got.length →
      tx x = bit (s.sent.length + 1) →
      Step s { s with sent := s.sent ++ [x], down := s.down ++ [x] }
  | again {s : Sys X Y} (x : X) : s.sent.getLast? = some x → s.sent.length = s.got.length + 1 →
      Step s { s with down := s.down ++ [x] }
  | hear {s : Sys X Y} (y : Y) (ys : List Y) : s.up = y :: ys →
      Step s { s with heard := some y, up := ys }
  | drop {s : Sys X Y} : Step s { s with heard := none }
  | accept {s : Sys X Y} (y : Y) : s.heard = some y → s.sent.length = s.got.length + 1 →
      ty y = bit (s.got.length + 1) →
      Step s { s with got := s.got ++ [y], heard := none }
  | lose {s : Sys X Y} (xs : List X) (ys : List Y) : xs.Sublist s.down → ys.Sublist s.up →
      Step s { s with down := xs, up := ys }
  | take {s : Sys X Y} (x : X) (xs : List X) (y : Y) : s.down = x :: xs →
      tx x = bit (s.rcvd.length + 1) → ty y = bit (s.said.length + 1) →
      Step s { s with
        rcvd := s.rcvd ++ [x], said := s.said ++ [y], down := xs, up := s.up ++ [y] }
  | answer {s : Sys X Y} (x : X) (xs : List X) (ys : List Y) : s.down = x :: xs →
      tx x ≠ bit (s.rcvd.length + 1) → ys.Sublist s.said.getLast?.toList →
      Step s { s with down := xs, up := s.up ++ ys }

variable {tx ty}

/-! ### Lines -/

/-- All on a line are copies of number `k`. -/
def Copies {Z : Type*} (l : List Z) (k : ℕ) (line : List Z) : Prop :=
  ∀ z ∈ line, 0 < k ∧ l[k - 1]? = some z

/-- On a line are copies of number `k`, then copies of number `n`. -/
def Between {Z : Type*} (l : List Z) (k n : ℕ) (line : List Z) : Prop :=
  ∃ old new, line = old ++ new ∧ Copies l k old ∧ Copies l n new

/-- Each telegram has the bit of its number. -/
def Numbered {Z : Type*} (t : Z → Bool) (l : List Z) : Prop :=
  ∀ i z, l[i]? = some z → t z = bit (i + 1)

section Lines

variable {Z : Type*} {t : Z → Bool} {l line line' : List Z} {k n : ℕ} {z : Z}

theorem Copies.nil : Copies l k [] := fun _ h => absurd h List.not_mem_nil

theorem Copies.append (h : Copies l k line) (h' : Copies l k line') : Copies l k (line ++ line') :=
  fun z hz => (List.mem_append.mp hz).elim (h z) (h' z)

theorem Copies.sublist (h : Copies l k line) (hs : line'.Sublist line) : Copies l k line' :=
  fun z hz => h z (hs.subset hz)

/-- More telegrams do not change the earlier ones. -/
theorem Copies.extend (h : Copies l k line) (hk : k ≤ l.length) (z : Z) :
    Copies (l ++ [z]) k line := by
  intro y hy
  obtain ⟨hpos, hget⟩ := h y hy
  exact ⟨hpos, by rw [List.getElem?_append_left (by omega), hget]⟩

theorem Copies.last (h : l.getLast? = some z) : Copies l l.length [z] := by
  intro y hy
  obtain rfl := List.mem_singleton.mp hy
  have hne : l ≠ [] := by
    rintro rfl
    cases h
  exact ⟨List.length_pos_of_ne_nil hne, by rw [← List.getLast?_eq_getElem?, h]⟩

/-- What may be repeated are copies of the last. -/
theorem Copies.of_getLast? (h : line.Sublist l.getLast?.toList) : Copies l l.length line := by
  cases hlast : l.getLast? with
  | none =>
    rw [hlast] at h
    exact Copies.nil.sublist h
  | some z =>
    rw [hlast] at h
    exact (Copies.last hlast).sublist h

/-- The bit of a copy. -/
theorem Copies.bit_eq (h : Copies l k line) (hnum : Numbered t l) (hz : z ∈ line) :
    t z = bit k := by
  obtain ⟨hpos, hget⟩ := h z hz
  rw [hnum _ z hget, Nat.sub_add_cancel hpos]

theorem Numbered.append (h : Numbered t l) (hz : t z = bit (l.length + 1)) :
    Numbered t (l ++ [z]) := by
  intro i y hi
  rw [List.getElem?_append] at hi
  split at hi
  · exact h i y hi
  · have hlt := (List.getElem?_eq_some_iff.mp hi).1
    have hi0 : i - l.length = 0 := by
      rw [List.length_singleton] at hlt
      omega
    rw [hi0] at hi
    obtain rfl : z = y := by simpa using hi
    rw [hz, show l.length = i by omega]

theorem Between.sublist (h : Between l k n line) (hs : line'.Sublist line) :
    Between l k n line' := by
  obtain ⟨old, new, rfl, hold, hnew⟩ := h
  obtain ⟨old', new', rfl, hold', hnew'⟩ := List.sublist_append_iff.mp hs
  exact ⟨old', new', rfl, hold.sublist hold', hnew.sublist hnew'⟩

theorem Between.append (h : Between l k n line) (h' : Copies l n line') :
    Between l k n (line ++ line') := by
  obtain ⟨old, new, rfl, hold, hnew⟩ := h
  exact ⟨old, new ++ line', List.append_assoc .., hold, hnew.append h'⟩

theorem Copies.between (h : Copies l n line) : Between l k n line := ⟨[], line, rfl, .nil, h⟩

/-- Where the two numbers are one. -/
theorem Between.copies (h : Between l k k line) : Copies l k line := by
  obtain ⟨old, new, rfl, hold, hnew⟩ := h
  exact hold.append hnew

/-- One telegram more is built: the line has copies of the last one, then of the new one. -/
theorem Copies.extend_line (h : Copies l l.length line) (z : Z) :
    Between (l ++ [z]) l.length (l.length + 1) (line ++ [z]) := by
  have hlast : Copies (l ++ [z]) (l.length + 1) [z] := by
    have hc := Copies.last (l := l ++ [z]) (z := z) (by simp)
    rwa [List.length_append, List.length_singleton] at hc
  exact ⟨line, [z], rfl, h.extend (Nat.le_refl _) z, hlast⟩

/-- If the next to come has the new bit, nothing is left of the old telegram. -/
theorem Between.head (h : Between l k (k + 1) (z :: line)) (hnum : Numbered t l)
    (hz : t z = bit (k + 1)) : Copies l (k + 1) (z :: line) := by
  obtain ⟨old, new, heq, hold, hnew⟩ := h
  cases old with
  | nil =>
    rw [List.nil_append] at heq
    rw [heq]
    exact hnew
  | cons y old =>
    obtain ⟨rfl, -⟩ := List.cons.inj heq
    have hold := hold.bit_eq hnum List.mem_cons_self
    exact absurd (hz.symm.trans hold) (bit_succ_ne k)

/-- A copy of the telegram behind a beginning continues it. -/
theorem Copies.prefix {p : List Z} (h : Copies l (p.length + 1) (z :: line)) (hp : p <+: l) :
    p ++ [z] <+: l := by
  obtain ⟨rest, rfl⟩ := hp
  obtain ⟨-, hget⟩ := h z List.mem_cons_self
  rw [Nat.add_sub_cancel, List.getElem?_append_right (Nat.le_refl _), Nat.sub_self] at hget
  cases rest with
  | nil => cases hget
  | cons y rest =>
    obtain rfl : y = z := by simpa using hget
    exact ⟨rest, by simp⟩

end Lines

/-! ### The invariant -/

/-- What holds in every state: each side has a prefix of what the other has sent. -/
structure Inv (tx : X → Bool) (ty : Y → Bool) (s : Sys X Y) : Prop where
  rcvd_isPrefix : s.rcvd <+: s.sent
  got_isPrefix : s.got <+: s.said
  said_length : s.said.length = s.rcvd.length
  sent_le : s.sent.length ≤ s.got.length + 1
  sent_num : Numbered tx s.sent
  said_num : Numbered ty s.said
  down : Between s.sent s.got.length s.sent.length s.down
  /-- Once the slave has taken the last telegram, there is nothing before it. -/
  down_last : s.rcvd.length = s.sent.length → Copies s.sent s.sent.length s.down
  up : Between s.said s.got.length s.said.length (s.heard.toList ++ s.up)

variable {s s' : Sys X Y}

/-- How far each side is. -/
theorem Inv.lengths (h : Inv tx ty s) : s.got.length ≤ s.rcvd.length ∧
    s.rcvd.length ≤ s.sent.length ∧ s.sent.length ≤ s.got.length + 1 :=
  ⟨h.said_length ▸ h.got_isPrefix.length_le, h.rcvd_isPrefix.length_le, h.sent_le⟩

theorem inv_start : Inv tx ty (start : Sys X Y) where
  rcvd_isPrefix := List.prefix_refl _
  got_isPrefix := List.prefix_refl _
  said_length := rfl
  sent_le := Nat.zero_le _
  sent_num := fun _ _ h => by cases h
  said_num := fun _ _ h => by cases h
  down := Copies.nil.between
  down_last := fun _ => .nil
  up := Copies.nil.between

/-- The answer that the master takes is to the last telegram. -/
theorem Inv.accepted (h : Inv tx ty s) {y : Y} (hheard : s.heard = some y)
    (hturn : s.sent.length = s.got.length + 1) (hbit : ty y = bit (s.got.length + 1)) :
    s.said.length = s.got.length + 1 ∧ Copies s.said (s.got.length + 1) (y :: s.up) := by
  obtain ⟨hgr, hrs, -⟩ := h.lengths
  have hsaid := h.said_length
  have hline := h.up
  rw [hheard] at hline
  have hr : s.said.length = s.got.length + 1 := by
    by_contra hr
    rw [show s.said.length = s.got.length by omega] at hline
    exact bit_succ_ne _ (hbit.symm.trans (hline.copies.bit_eq h.said_num List.mem_cons_self))
  rw [hr] at hline
  exact ⟨hr, hline.head h.said_num hbit⟩

/-- A telegram that the slave takes is the next. -/
theorem Inv.taken (h : Inv tx ty s) {x : X} {xs : List X} (hdown : s.down = x :: xs)
    (hbit : tx x = bit (s.rcvd.length + 1)) :
    s.got.length = s.rcvd.length ∧ s.sent.length = s.rcvd.length + 1 ∧
      Copies s.sent (s.rcvd.length + 1) (x :: xs) := by
  obtain ⟨hgr, hrs, hsg⟩ := h.lengths
  have hline := h.down
  rw [hdown] at hline
  have hr : s.rcvd.length ≠ s.sent.length := by
    intro hr
    have hlast := h.down_last hr
    rw [hdown, ← hr] at hlast
    exact bit_succ_ne _ (hbit.symm.trans (hlast.bit_eq h.sent_num List.mem_cons_self))
  have hg : s.got.length = s.rcvd.length := by omega
  have hn : s.sent.length = s.rcvd.length + 1 := by omega
  rw [hg, hn] at hline
  exact ⟨hg, hn, hline.head h.sent_num hbit⟩

/-- **Step.** -/
theorem Inv.step (h : Inv tx ty s) (hstep : Step tx ty s s') : Inv tx ty s' := by
  obtain ⟨hgr, hrs, hsg⟩ := h.lengths
  have hsaid := h.said_length
  cases hstep with
  | build x hturn hbit =>
    have hdown := h.down
    rw [← hturn] at hdown
    exact { h with
      rcvd_isPrefix := h.rcvd_isPrefix.trans (List.prefix_append _ _)
      sent_le := by simp [hturn]
      sent_num := h.sent_num.append hbit
      down := by
        show Between (s.sent ++ [x]) s.got.length (s.sent ++ [x]).length (s.down ++ [x])
        rw [List.length_append, List.length_singleton, ← hturn]
        exact hdown.copies.extend_line x
      down_last := by
        intro hlen
        simp only [List.length_append, List.length_singleton] at hlen
        omega }
  | again x hlast hturn =>
    have hcopy := Copies.last hlast
    exact { h with
      down := h.down.append hcopy
      down_last := fun hlen => (h.down_last hlen).append hcopy }
  | hear y ys hup =>
    have hline := h.up
    rw [hup] at hline
    exact { h with up := hline.sublist (List.sublist_append_right _ _) }
  | drop => exact { h with up := h.up.sublist (List.sublist_append_right _ _) }
  | accept y hheard hturn hbit =>
    obtain ⟨hr, hcopies⟩ := h.accepted hheard hturn hbit
    exact { h with
      got_isPrefix := hcopies.prefix h.got_isPrefix
      sent_le := by simp [hturn]
      down := by
        show Between s.sent (s.got ++ [y]).length s.sent.length s.down
        exact (h.down_last (by omega)).between
      up := by
        show Between s.said (s.got ++ [y]).length s.said.length s.up
        rw [hr]
        exact (hcopies.sublist (List.sublist_cons_self _ _)).between }
  | lose xs ys hxs hys =>
    exact { h with
      down := h.down.sublist hxs
      down_last := fun hlen => (h.down_last hlen).sublist hxs
      up := h.up.sublist (hys.append_left _) }
  | take x xs y hdown hbit hbit' =>
    obtain ⟨hg, hn, hcopies⟩ := h.taken hdown hbit
    have hrest := hcopies.sublist (List.sublist_cons_self _ _)
    have hup := h.up
    rw [hg, ← hsaid] at hup
    exact { h with
      rcvd_isPrefix := hcopies.prefix h.rcvd_isPrefix
      got_isPrefix := h.got_isPrefix.trans (List.prefix_append _ _)
      said_length := by simp [hsaid]
      said_num := h.said_num.append hbit'
      down := by
        show Between s.sent s.got.length s.sent.length xs
        rw [hn]
        exact hrest.between
      down_last := fun _ => by
        show Copies s.sent s.sent.length xs
        rw [hn]
        exact hrest
      up := by
        show Between (s.said ++ [y]) s.got.length (s.said ++ [y]).length
          (s.heard.toList ++ (s.up ++ [y]))
        rw [List.length_append, List.length_singleton, hg, ← hsaid, ← List.append_assoc]
        exact hup.copies.extend_line y }
  | answer x xs ys hdown hbit hys =>
    have hxs : xs.Sublist s.down := hdown ▸ List.sublist_cons_self x xs
    exact { h with
      down := h.down.sublist hxs
      down_last := fun hlen => (h.down_last hlen).sublist hxs
      up := by
        show Between s.said s.got.length s.said.length (s.heard.toList ++ (s.up ++ ys))
        rw [← List.append_assoc]
        exact h.up.append (.of_getLast? hys) }

/-- **Run.** -/
theorem Inv.of_reachable (h : Relation.ReflTransGen (Step tx ty) start s) : Inv tx ty s := by
  induction h with
  | refl => exact inv_start
  | tail _ hstep ih => exact ih.step hstep

end Toggle
