/-
Start01/Lib/Fragment.lean

Messages that go over a link in fragments.  A telegram carries a fragment, or none; the fragments
up to a telegram without one are a message.  `reassemble` is what a receiver makes of the telegrams
it has had: the messages that are complete, and what it has of the next.
-/
import Mathlib.Tactic

namespace Fragment

variable {α : Type*}

/-- What a receiver has put together. -/
structure Collected (α : Type*) where
  /-- The messages that are complete. -/
  done : List (List α)
  /-- What there is of the next. -/
  part : List α

/-- One telegram. -/
def collect (c : Collected α) : Option (List α) → Collected α
  | some fragment => ⟨c.done, c.part ++ fragment⟩
  | none => if c.part = [] then c else ⟨c.done ++ [c.part], []⟩

/-- All telegrams so far. -/
def reassemble (telegrams : List (Option (List α))) : Collected α := telegrams.foldl collect ⟨[], []⟩

variable {ts ts' : List (Option (List α))} {f : List α}

theorem reassemble_concat (ts : List (Option (List α))) (t : Option (List α)) :
    reassemble (ts ++ [t]) = collect (reassemble ts) t := by
  rw [reassemble, List.foldl_append]
  rfl

/-- Messages stay complete. -/
theorem done_mono_append (ts ts' : List (Option (List α))) :
    (reassemble ts).done <+: (reassemble (ts ++ ts')).done := by
  induction ts' using List.reverseRecOn with
  | nil => rw [List.append_nil]
  | append_singleton ts' t ih =>
    rw [← List.append_assoc, reassemble_concat]
    refine ih.trans ?_
    cases t with
    | some f => exact List.prefix_refl _
    | none =>
      rw [collect]
      split
      · exact List.prefix_refl _
      · exact List.prefix_append _ _

theorem done_mono (h : ts <+: ts') : (reassemble ts).done <+: (reassemble ts').done := by
  obtain ⟨rest, rfl⟩ := h
  exact done_mono_append ts rest

/-! ### Pieces of one length -/

/-- The first `c` pieces of `w` of a message, the last of them with anything behind its end. -/
structure Partial (w : ℕ) (m part : List α) (c : ℕ) : Prop where
  length_eq : part.length = w * c
  take_eq : part.take m.length = m.take (w * c)

/-- A message, with less than `w` behind its end. -/
structure Carries (w : ℕ) (a m : List α) : Prop where
  isPrefix : m <+: a
  length_lt : a.length < m.length + w

variable {w c : ℕ} {m part : List α}

theorem partial_zero (w : ℕ) (m : List α) : Partial w m [] 0 where
  length_eq := rfl
  take_eq := by simp

/-- One more piece. -/
theorem Partial.step (h : Partial w m part c) (hlen : f.length = w)
    (hf : f.take (m.length - w * c) = (m.drop (w * c)).take w) :
    Partial w m (part ++ f) (c + 1) where
  length_eq := by rw [List.length_append, h.length_eq, hlen, Nat.mul_succ]
  take_eq := by
    rw [List.take_append, h.take_eq, h.length_eq, hf, Nat.mul_succ, List.take_add]

/-- All pieces. -/
theorem Partial.carries (h : Partial w m part c) (hle : m.length ≤ w * c)
    (hlt : w * c < m.length + w) : Carries w part m where
  isPrefix := by
    have htake := h.take_eq
    rw [List.take_of_length_le hle] at htake
    exact htake ▸ List.take_prefix _ _
  length_lt := h.length_eq ▸ hlt

end Fragment
