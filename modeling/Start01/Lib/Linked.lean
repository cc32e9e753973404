/-
Start01/Lib/Linked.lean

Singly linked chains in a heap.  A heap of cells is any type `ι` of addresses
with a map `next : ι → Option ι`; a chain head is an `Option ι`, and `none` is
the null pointer.

`Chain next p l` says that following `next` from `p` visits exactly the cells
of `l`, in order, and then meets the null pointer.  It is the shape predicate
the push and frame lemmas are about:

    Chain next p l  →  a ∉ l  →  Chain (update next a p) (some a) (a :: l).

A loop `while (p) { … ; p = p->next; }` need not terminate (a cell pushed twice
closes a cycle), so `walk` and `find` carry fuel and answer `none` when it runs
out.  On a chain they are the list functions `foldl` and `find?`.  Where no
chain is known, `walk_invariant` and `find_ne_end` reason from a set of cells
closed under `next`.

`Pushed next p l` says what is left when the cells of `l` have been pushed, the
last one first: a chain if none was pushed twice, and otherwise a cycle, which no
further push opens (`Pushed.push`).
-/
import Mathlib.Tactic
import Mathlib.Logic.Function.Basic

namespace Linked

variable {ι β : Type*}

/-! ### Chains -/

/-- Following `next` from `p` visits exactly the cells of `l`, then ends. -/
def Chain (next : ι → Option ι) : Option ι → List ι → Prop
  | p, [] => p = none
  | p, a :: l => p = some a ∧ Chain next (next a) l

@[simp] theorem chain_nil {next : ι → Option ι} {p : Option ι} :
    Chain next p [] ↔ p = none := Iff.rfl

/-- A chain depends only on the links of its own cells. -/
theorem Chain.congr {next next' : ι → Option ι} {l : List ι} :
    ∀ {p : Option ι}, Chain next p l → (∀ a ∈ l, next' a = next a) → Chain next' p l := by
  induction l with
  | nil => exact fun h _ => h
  | cons a l ih =>
    rintro p ⟨hp, hl⟩ hsame
    refine ⟨hp, ?_⟩
    rw [hsame a List.mem_cons_self]
    exact ih hl fun b hb => hsame b (List.mem_cons_of_mem a hb)

/-- From one head there is one chain. -/
theorem Chain.unique {next : ι → Option ι} {l : List ι} :
    ∀ {p : Option ι} {l' : List ι}, Chain next p l → Chain next p l' → l = l' := by
  induction l with
  | nil =>
    rintro p (- | ⟨b, l'⟩) hp hl'
    · rfl
    · cases hp.symm.trans hl'.1
  | cons a l ih =>
    rintro p (- | ⟨b, l'⟩) ⟨hp, hl⟩ hl'
    · cases hl'.symm.trans hp
    · obtain rfl := Option.some.inj (hp.symm.trans hl'.1)
      rw [ih hl hl'.2]

variable [DecidableEq ι]

/-- Relinking a cell outside a chain leaves the chain as it is. -/
theorem Chain.frame {next : ι → Option ι} {p : Option ι} {l : List ι} {a : ι}
    (h : Chain next p l) (ha : a ∉ l) (q : Option ι) :
    Chain (Function.update next a q) p l := by
  refine h.congr fun b hb => ?_
  have hne : b ≠ a := by rintro rfl; exact ha hb
  exact Function.update_of_ne hne q next

/-- Pushing a fresh cell: link it to the old head and make it the head. -/
theorem Chain.push {next : ι → Option ι} {p : Option ι} {l : List ι} {a : ι}
    (h : Chain next p l) (ha : a ∉ l) :
    Chain (Function.update next a p) (some a) (a :: l) := by
  refine ⟨rfl, ?_⟩
  rw [Function.update_self]
  exact h.frame ha p

/-! ### Walking a chain -/

omit [DecidableEq ι]

/-- `for (; p; p = next p) b = f b p`, with fuel. -/
def walk (next : ι → Option ι) (f : β → ι → β) : ℕ → Option ι → β → Option β
  | _, none, b => some b
  | 0, some _, _ => none
  | n + 1, some a, b => walk next f n (next a) (f b a)

@[simp] theorem walk_none (next : ι → Option ι) (f : β → ι → β) (n : ℕ) (b : β) :
    walk next f n none b = some b := by
  cases n <;> rfl

/-- On a chain the walk is a left fold, as soon as the fuel covers the chain. -/
theorem Chain.walk_eq {next : ι → Option ι} {l : List ι} (f : β → ι → β) :
    ∀ {p : Option ι} {n : ℕ} (b : β), Chain next p l → l.length ≤ n →
      walk next f n p b = some (l.foldl f b) := by
  induction l with
  | nil =>
    rintro p n b hp -
    rw [chain_nil.mp hp, walk_none, List.foldl_nil]
  | cons a l ih =>
    rintro p n b ⟨rfl, hl⟩ hn
    obtain ⟨m, rfl⟩ : ∃ m, n = m + 1 := ⟨n - 1, by simp at hn; omega⟩
    exact ih (f b a) hl (by simpa using hn)

/-- A walk that returns has gone along a chain. -/
theorem walk_eq_some {next : ι → Option ι} {f : β → ι → β} :
    ∀ {n : ℕ} {p : Option ι} {b b' : β}, walk next f n p b = some b' →
      ∃ l, Chain next p l ∧ l.foldl f b = b' := by
  intro n
  induction n with
  | zero =>
    rintro (- | a) b b' h
    · exact ⟨[], rfl, Option.some.inj h⟩
    · cases h
  | succ n ih =>
    rintro (- | a) b b' h
    · exact ⟨[], rfl, Option.some.inj h⟩
    · obtain ⟨l, hl, hfold⟩ := ih h
      exact ⟨a :: l, ⟨rfl, hl⟩, hfold⟩

/-- **Walk invariant.**  A property kept by the loop body on every cell of a set
closed under `next` holds of the result of every walk that returns. -/
theorem walk_invariant {next : ι → Option ι} {f : β → ι → β} {S : Set ι} {P : β → Prop}
    (hclosed : ∀ a ∈ S, ∀ b, next a = some b → b ∈ S)
    (hstep : ∀ b a, a ∈ S → P b → P (f b a)) :
    ∀ {n : ℕ} {p : Option ι} {b b' : β}, (∀ a, p = some a → a ∈ S) → P b →
      walk next f n p b = some b' → P b' := by
  intro n
  induction n with
  | zero =>
    rintro (- | a) b b' - hb h
    · exact Option.some.inj h ▸ hb
    · cases h
  | succ n ih =>
    rintro (- | a) b b' hp hb h
    · exact Option.some.inj h ▸ hb
    · have ha : a ∈ S := hp a rfl
      exact ih (hclosed a ha) (hstep b a ha hb) h

/-! ### Searching a chain -/

/-- `while (p) { if (hit p) return p; p = next p; } return NULL`, with fuel. -/
def find (next : ι → Option ι) (hit : ι → Bool) : ℕ → Option ι → Option (Option ι)
  | _, none => some none
  | 0, some _ => none
  | n + 1, some a => if hit a then some (some a) else find next hit n (next a)

/-- What a search returns is a hit. -/
theorem find_hit {next : ι → Option ι} {hit : ι → Bool} :
    ∀ {n : ℕ} {p : Option ι} {a : ι}, find next hit n p = some (some a) → hit a = true := by
  intro n
  induction n with
  | zero => rintro (- | b) a h <;> cases h
  | succ n ih =>
    rintro (- | b) a h
    · cases h
    · by_cases hb : hit b = true
      · rw [find, if_pos hb] at h
        cases h
        exact hb
      · rw [find, if_neg hb] at h
        exact ih h

/-- What a search finds lies in every set closed under `next` that it starts in. -/
theorem find_mem {next : ι → Option ι} {hit : ι → Bool} {S : Set ι}
    (hclosed : ∀ a ∈ S, ∀ b, next a = some b → b ∈ S) :
    ∀ {n : ℕ} {p : Option ι} {a : ι}, (∀ b, p = some b → b ∈ S) →
      find next hit n p = some (some a) → a ∈ S := by
  intro n
  induction n with
  | zero => rintro (- | b) a _ h <;> cases h
  | succ n ih =>
    rintro (- | b) a hp h
    · cases h
    · by_cases hb : hit b = true
      · rw [find, if_pos hb] at h
        cases h
        exact hp b rfl
      · rw [find, if_neg hb] at h
        exact ih (hclosed b (hp b rfl)) h

/-- **A search does not end empty-handed** when it starts in a set whose every
cell is a hit or links back into the set. -/
theorem find_ne_end {next : ι → Option ι} {hit : ι → Bool} {S : Set ι}
    (hclosed : ∀ a ∈ S, hit a = true ∨ ∃ b ∈ S, next a = some b) :
    ∀ {n : ℕ} {a : ι}, a ∈ S → find next hit n (some a) ≠ some none := by
  intro n
  induction n with
  | zero => intro a _ h; cases h
  | succ n ih =>
    intro a ha h
    rcases hclosed a ha with hit' | ⟨b, hb, hnext⟩
    · rw [find, if_pos hit'] at h
      cases h
    · by_cases hit' : hit a = true
      · rw [find, if_pos hit'] at h
        cases h
      · rw [find, if_neg hit', hnext] at h
        exact ih hb h

/-- On a chain the search is `find?`, as soon as the fuel covers the chain. -/
theorem Chain.find_eq {next : ι → Option ι} {l : List ι} (hit : ι → Bool) :
    ∀ {p : Option ι} {n : ℕ}, Chain next p l → l.length ≤ n →
      find next hit n p = some (l.find? hit) := by
  induction l with
  | nil =>
    rintro p n hp -
    rw [chain_nil.mp hp]
    cases n <;> rfl
  | cons a l ih =>
    rintro p n ⟨rfl, hl⟩ hn
    obtain ⟨m, rfl⟩ : ∃ m, n = m + 1 := ⟨n - 1, by simp at hn; omega⟩
    rw [find, List.find?_cons]
    cases hit a with
    | true => rfl
    | false => exact ih hl (by simpa using hn)

/-! ### Walks that do not end -/

/-- From `p`, which is in `S`, every link leads to `S` again. -/
def Endless (next : ι → Option ι) (p : Option ι) (S : Set ι) : Prop :=
  (∃ a ∈ S, p = some a) ∧ ∀ a ∈ S, ∃ b ∈ S, next a = some b

/-- The same behind the first cell. -/
theorem Endless.next {next : ι → Option ι} {S : Set ι} {a : ι} (h : Endless next (some a) S) :
    Endless next (next a) S := by
  obtain ⟨⟨b, hb, heq⟩, hlink⟩ := h
  rw [Option.some.inj heq]
  exact ⟨hlink b hb, hlink⟩

theorem Endless.not_chain {next : ι → Option ι} {S : Set ι} (l : List ι) :
    ∀ {p : Option ι}, Endless next p S → ¬ Chain next p l := by
  induction l with
  | nil =>
    rintro p ⟨⟨a, -, rfl⟩, -⟩ hp
    cases hp
  | cons a l ih =>
    rintro p h ⟨rfl, hl⟩
    exact ih h.next hl

theorem Endless.walk_eq_none {next : ι → Option ι} {S : Set ι} (f : β → ι → β) (n : ℕ) :
    ∀ {p : Option ι} (b : β), Endless next p S → walk next f n p b = none := by
  induction n with
  | zero =>
    rintro p b ⟨⟨a, -, rfl⟩, -⟩
    rfl
  | succ n ih =>
    intro p b h
    obtain ⟨a, -, rfl⟩ := h.1
    exact ih _ h.next

/-! ### Cells pushed again -/

section Pushed

variable [DecidableEq ι] {next : ι → Option ι} {p : Option ι} {l : List ι}

/-- A new head in front of links that do not end. -/
theorem Endless.push {S : Set ι} (h : Endless next p S) (a : ι) :
    Endless (Function.update next a p) (some a) (insert a S) := by
  obtain ⟨⟨b, hb, rfl⟩, hlink⟩ := h
  refine ⟨⟨a, Set.mem_insert a S, rfl⟩, fun c hc => ?_⟩
  by_cases hca : c = a
  · rw [hca, Function.update_self]
    exact ⟨b, Set.mem_insert_of_mem a hb, rfl⟩
  · obtain ⟨d, hd, hnext⟩ := hlink c (Set.mem_of_mem_insert_of_ne hc hca)
    rw [Function.update_of_ne hca]
    exact ⟨d, Set.mem_insert_of_mem a hd, hnext⟩

/-- The cells of a chain up to `a`: from all but `a` the link leads to the next of them. -/
theorem Chain.upTo {a : ι} (ha : a ∈ l) :
    ∀ {p : Option ι}, Chain next p l → ∃ S : Set ι, (∀ b ∈ S, b ∈ l) ∧ (∃ b ∈ S, p = some b) ∧
      a ∈ S ∧ ∀ b ∈ S, b ≠ a → ∃ c ∈ S, next b = some c := by
  induction l with
  | nil => cases ha
  | cons b l ih =>
    rintro p ⟨rfl, hl⟩
    by_cases hba : b = a
    · subst hba
      exact ⟨{b}, fun c hc => hc ▸ List.mem_cons_self, ⟨b, rfl, rfl⟩, rfl, fun c hc hne => absurd hc hne⟩
    · obtain ⟨S, hsub, hhead, haS, hlink⟩ := ih ((List.mem_cons.mp ha).resolve_left (Ne.symm hba)) hl
      refine ⟨insert b S, fun c hc => ?_, ⟨b, Set.mem_insert b S, rfl⟩, Set.mem_insert_of_mem b haS,
        fun c hc hne => ?_⟩
      · rcases hc with rfl | hc
        · exact List.mem_cons_self
        · exact List.mem_cons_of_mem b (hsub c hc)
      · rcases hc with rfl | hc
        · obtain ⟨d, hd, hnext⟩ := hhead
          exact ⟨d, Set.mem_insert_of_mem c hd, hnext⟩
        · obtain ⟨d, hd, hnext⟩ := hlink c hc hne
          exact ⟨d, Set.mem_insert_of_mem b hd, hnext⟩

/-- Pushing a cell of the chain closes a cycle. -/
theorem Chain.push_again (h : Chain next p l) {a : ι} (ha : a ∈ l) :
    ∃ S : Set ι, (∀ b ∈ S, b ∈ l) ∧ Endless (Function.update next a p) (some a) S := by
  obtain ⟨S, hsub, hhead, haS, hlink⟩ := h.upTo ha
  refine ⟨S, hsub, ⟨a, haS, rfl⟩, fun b hb => ?_⟩
  by_cases hba : b = a
  · rw [hba, Function.update_self]
    exact hhead
  · rw [Function.update_of_ne hba]
    exact hlink b hb hba

/-- The cells of `l` have been pushed on an empty list, the last one first. -/
structure Pushed (next : ι → Option ι) (p : Option ι) (l : List ι) : Prop where
  chain : l.Nodup → Chain next p l
  endless : ¬ l.Nodup → ∃ S : Set ι, (∀ a ∈ S, a ∈ l) ∧ Endless next p S

omit [DecidableEq ι] in
theorem Pushed.nil (next : ι → Option ι) : Pushed next none [] :=
  ⟨fun _ => rfl, fun h => absurd List.nodup_nil h⟩

/-- **Push.**  One more cell, new or not. -/
theorem Pushed.push (h : Pushed next p l) (a : ι) :
    Pushed (Function.update next a p) (some a) (a :: l) := by
  refine ⟨fun hnd => ?_, fun hdup => ?_⟩
  · obtain ⟨ha, hl⟩ := List.nodup_cons.mp hnd
    exact (h.chain hl).push ha
  · by_cases hl : l.Nodup
    · have ha : a ∈ l := by
        by_contra ha
        exact hdup (List.nodup_cons.mpr ⟨ha, hl⟩)
      obtain ⟨S, hsub, hend⟩ := (h.chain hl).push_again ha
      exact ⟨S, fun b hb => List.mem_cons_of_mem a (hsub b hb), hend⟩
    · -- the cycle that is there stays
      obtain ⟨S, hsub, hend⟩ := h.endless hl
      refine ⟨insert a S, fun b hb => ?_, hend.push a⟩
      rcases hb with rfl | hb
      · exact List.mem_cons_self
      · exact List.mem_cons_of_mem a (hsub b hb)

/-- Relinking a cell that was not pushed changes nothing. -/
theorem Pushed.frame (h : Pushed next p l) {a : ι} (ha : a ∉ l) (q : Option ι) :
    Pushed (Function.update next a q) p l := by
  refine ⟨fun hnd => (h.chain hnd).frame ha q, fun hdup => ?_⟩
  obtain ⟨S, hsub, hhead, hlink⟩ := h.endless hdup
  refine ⟨S, hsub, hhead, fun b hb => ?_⟩
  have hba : b ≠ a := by rintro rfl; exact ha (hsub b hb)
  rw [Function.update_of_ne hba]
  exact hlink b hb

omit [DecidableEq ι] in
/-- **Finite** iff no cell was pushed twice. -/
theorem Pushed.finite_iff (h : Pushed next p l) : (∃ l', Chain next p l') ↔ l.Nodup := by
  refine ⟨fun ⟨l', hl'⟩ => ?_, fun hnd => ⟨l, h.chain hnd⟩⟩
  by_contra hdup
  obtain ⟨S, -, hend⟩ := h.endless hdup
  exact hend.not_chain l' hl'

end Pushed

end Linked
