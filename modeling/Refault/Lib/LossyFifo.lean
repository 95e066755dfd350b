import Mathlib.Data.List.Basic
import Mathlib.Tactic.Common

/-!
# Lossy queues

A queue that keeps its order but may lose entries from its front, seen from outside: `put` is what went into
it, in order, `got` what was taken out of it, and `buf` what it holds.  `LossyFifo put got buf` says that
these fit together.  There is one rule for each thing that can happen to the queue, and `pairwise` is what it
is for: what was taken out is in the order in which it was put in.
-/

def LossyFifo {A : Type} (put got buf : List A) : Prop := ∃ past, put = past ++ buf ∧ got.Sublist past

namespace LossyFifo

variable {A : Type} {put got buf : List A} {a : A}

theorem nil : LossyFifo ([] : List A) [] [] := ⟨[], rfl, .slnil⟩

theorem push (h : LossyFifo put got buf) (a : A) : LossyFifo (put ++ [a]) got (buf ++ [a]) := by
  obtain ⟨past, hput, hgot⟩ := h
  exact ⟨past, by rw [hput, List.append_assoc], hgot⟩

theorem pop (h : LossyFifo put got (a :: buf)) : LossyFifo put (got ++ [a]) buf := by
  obtain ⟨past, hput, hgot⟩ := h
  exact ⟨past ++ [a], by rw [hput, List.append_cons], hgot.append (.refl [a])⟩

theorem lose (h : LossyFifo put got (a :: buf)) : LossyFifo put got buf := by
  obtain ⟨past, hput, hgot⟩ := h
  exact ⟨past ++ [a], by rw [hput, List.append_cons], hgot.trans (List.sublist_append_left past [a])⟩

theorem clear (h : LossyFifo put got buf) : LossyFifo put got [] := by
  obtain ⟨past, hput, hgot⟩ := h
  exact ⟨past ++ buf, by rw [hput, List.append_nil], hgot.trans (List.sublist_append_left past buf)⟩

theorem sublist (h : LossyFifo put got buf) : got.Sublist put := by
  obtain ⟨past, hput, hgot⟩ := h
  rw [hput]
  exact hgot.trans (List.sublist_append_left past buf)

/-- An order of what went in is an order of what came out. -/
theorem pairwise {R : A → A → Prop} (h : LossyFifo put got buf) (hR : put.Pairwise R) : got.Pairwise R :=
  hR.sublist h.sublist

end LossyFifo
