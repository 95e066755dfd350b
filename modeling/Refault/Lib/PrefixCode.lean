import Mathlib.Data.List.Basic
import Mathlib.InformationTheory.Coding.UniquelyDecodable

/-!
# Prefix codes

A code sends a symbol to a word.  It is prefix free when what follows a word never changes which symbol is
read; the words of a prefix free code without the empty word can be written one after the other, without
separators, and read back.
-/

variable {α β : Type}

/-- The symbol is read off the beginning of what is written. -/
def PrefixFree (code : α → List β) : Prop := ∀ a b xs ys, code a ++ xs = code b ++ ys → a = b

namespace PrefixFree

variable {code : α → List β}

theorem injective (h : PrefixFree code) : Function.Injective code := by
  intro a b hab
  exact h a b [] [] (by rw [hab])

/-- Reading a list of words back, one word at a time. -/
theorem uniquelyDecodable (h : PrefixFree code) (hne : ∀ a, code a ≠ []) :
    InformationTheory.UniquelyDecodable (Set.range code) := by
  intro ws
  induction ws with
  | nil =>
    intro vs _ hvs heq
    cases vs with
    | nil => rfl
    | cons v vs =>
      obtain ⟨b, rfl⟩ := hvs v List.mem_cons_self
      have hnil : code b = [] := (List.append_eq_nil_iff.mp heq.symm).1
      exact absurd hnil (hne b)
  | cons w ws ih =>
    intro vs hws hvs heq
    obtain ⟨a, rfl⟩ := hws w List.mem_cons_self
    cases vs with
    | nil =>
      have hnil : code a = [] := (List.append_eq_nil_iff.mp heq).1
      exact absurd hnil (hne a)
    | cons v vs =>
      obtain ⟨b, rfl⟩ := hvs v List.mem_cons_self
      obtain rfl : a = b := h a b ws.flatten vs.flatten heq
      have hrest : ws.flatten = vs.flatten := List.append_cancel_left heq
      rw [ih vs (fun w hw => hws w (List.mem_cons_of_mem _ hw))
        (fun v hv => hvs v (List.mem_cons_of_mem _ hv)) hrest]

/-- A list of symbols is read back from its words. -/
theorem flatMap_injective (h : PrefixFree code) (hne : ∀ a, code a ≠ []) :
    Function.Injective fun as : List α => as.flatMap code := by
  intro as bs heq
  have hrange : ∀ (cs : List α), ∀ w ∈ cs.map code, w ∈ Set.range code := by
    intro cs w hw
    obtain ⟨c, -, rfl⟩ := List.mem_map.mp hw
    exact ⟨c, rfl⟩
  apply List.map_injective_iff.mpr h.injective
  apply h.uniquelyDecodable hne _ _ (hrange as) (hrange bs)
  simpa only [List.flatMap_def] using heq

end PrefixFree
