import Mathlib.Tactic.Common
import Mathlib.Data.List.Count

/-!
# Custody: a thing of which there is one copy

`a : P → ℕ` says how many copies of a thing there are at every place.  `At a p`: there is one, at `p`.  A
`Moves` step takes a copy from one place to another, so a thing that is at one place stays at one place.
-/

namespace Custody

variable {P : Type} [DecidableEq P]

/-- There is one copy, and it is at `p`. -/
def At (a : P → ℕ) (p : P) : Prop := ∀ q, a q = if q = p then 1 else 0

/-- One copy goes from `p` to `q`. -/
def Moves (a a' : P → ℕ) (p q : P) : Prop :=
  ∀ x, a' x + (if x = p then 1 else 0) = a x + (if x = q then 1 else 0)

variable {a a' : P → ℕ} {p q : P}

theorem At.self (h : At a p) : a p = 1 := by rw [h p, if_pos rfl]

theorem At.other (h : At a p) (hq : q ≠ p) : a q = 0 := by rw [h q, if_neg hq]

/-- Where a copy is, the thing is. -/
theorem At.eq_of_pos (h : At a p) (hq : 0 < a q) : q = p := by
  by_contra hne
  rw [h.other hne] at hq
  exact Nat.lt_irrefl 0 hq

theorem At.unique (h : At a p) (h' : At a q) : p = q := h'.eq_of_pos (h.self ▸ Nat.one_pos)

theorem At.le_one (h : At a p) (q : P) : a q ≤ 1 := by
  rw [h q]
  split <;> omega

theorem At.congr (h : At a p) (he : ∀ q, a' q = a q) : At a' p := fun q => (he q).trans (h q)

/-- A thing that was at one place is at the place it was moved to. -/
theorem At.moves {r : P} (h : At a r) (hm : Moves a a' p q) (hp : 0 < a p) : At a' q := by
  obtain rfl : p = r := h.eq_of_pos hp
  intro x
  have hx := hm x
  rw [h x] at hx
  split_ifs at hx ⊢ <;> omega

/-- A new thing. -/
theorem at_of_zero (h : ∀ q, a q = 0) (hn : ∀ x, a' x = a x + if x = p then 1 else 0) : At a' p := fun x => by
  rw [hn x, h x, Nat.zero_add]

end Custody
