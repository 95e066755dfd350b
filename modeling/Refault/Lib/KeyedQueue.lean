import Mathlib.Tactic.Common
import Mathlib.Logic.Function.Basic
import Mathlib.Order.Lattice
import Mathlib.Data.List.Nodup
import Mathlib.Data.List.Perm.Basic
import Mathlib.Data.List.Induction

/-!
# Keyed priority queues

`KeyedQueue Q K P` says that `Q` is a queue of keys `K` with priorities `P`: `get` reads it as a finite map,
`push` and `remove` change one key, `peek` answers an entry of least priority and `pop` removes that entry.
Nothing is said about which of several least entries `peek` answers.

`SwapArray` is one implementation, an unordered array that answers its leftmost least entry and fills every
hole with its last entry.  On entries of one priority that is what a binary heap does: its root is the
leftmost entry, the last entry takes the place of a popped root, and nothing sinks.
-/

/-- A keyed priority queue. -/
class KeyedQueue (Q : Type) (K P : outParam Type) [DecidableEq K] [LinearOrder P] where
  empty : Q
  push : Q → K → P → Q
  remove : Q → K → Q
  peek : Q → Option (K × P)
  pop : Q → Q
  get : Q → K → Option P
  get_empty : ∀ k, get empty k = none
  get_push : ∀ q k p, get (push q k p) = Function.update (get q) k (some p)
  get_remove : ∀ q k, get (remove q k) = Function.update (get q) k none
  get_of_peek_none : ∀ q, peek q = none → ∀ k, get q k = none
  get_of_peek : ∀ q k p, peek q = some (k, p) → get q k = some p
  le_of_peek : ∀ q k p, peek q = some (k, p) → ∀ k' p', get q k' = some p' → p ≤ p'
  get_pop : ∀ q k p, peek q = some (k, p) → get (pop q) = Function.update (get q) k none

namespace KeyedQueue

variable {Q K P : Type} [DecidableEq K] [LinearOrder P] [KeyedQueue Q K P]

/-- Remove the peeked entry if `f` accepts its priority. -/
def popIf (q : Q) (f : P → Bool) : Option ((K × P) × Q) :=
  match peek q with
  | some (k, p) => if f p then some ((k, p), pop q) else none
  | none => none

theorem popIf_eq_some {q q' : Q} {f : P → Bool} {k : K} {p : P} (h : popIf q f = some ((k, p), q')) :
    peek q = some (k, p) ∧ f p = true ∧ get q' = Function.update (get q) k none := by
  unfold popIf at h
  split at h
  · rename_i k' p' hp
    split_ifs at h with hf
    simp only [Option.some.injEq, Prod.mk.injEq] at h
    obtain ⟨⟨rfl, rfl⟩, rfl⟩ := h
    exact ⟨hp, hf, get_pop q _ _ hp⟩
  · cases h

/-- When the least priority is refused, so is every other one an accepting prefix refuses. -/
theorem popIf_eq_none {q : Q} {b : P} (h : popIf q (fun p => decide (p ≤ b)) = none) {k : K} {p : P}
    (hk : get q k = some p) : b < p := by
  unfold popIf at h
  split at h
  · rename_i k' p' hp
    split_ifs at h with hf
    simp only [decide_eq_true_eq, not_le] at hf
    exact lt_of_lt_of_le hf (le_of_peek q _ _ hp k p hk)
  · rename_i hp
    rw [get_of_peek_none q hp k] at hk
    cases hk

theorem peek_isSome {q : Q} {k : K} {p : P} (h : get q k = some p) : ∃ e, peek q = some e := by
  cases hp : peek q with
  | none => rw [get_of_peek_none q hp k] at h; cases h
  | some e => exact ⟨e, rfl⟩

end KeyedQueue

/-! ## The array that fills holes with its last entry -/

/-- Entries in array order; a key occurs once. -/
structure SwapArray (K P : Type) where
  entries : List (K × P)
  nodup : (entries.map Prod.fst).Nodup

namespace SwapArray

variable {K P : Type}

/-- Remove the entry at `i` and put the last entry in its place. -/
def swapRemove (l : List (K × P)) (i : ℕ) : List (K × P) :=
  match l.getLast? with
  | none => []
  | some e => if i + 1 < l.length then (l.set i e).dropLast else l.dropLast

theorem swapRemove_perm {l : List (K × P)} {i : ℕ} (h : i < l.length) : (l[i] :: swapRemove l i).Perm l := by
  induction l using List.reverseRecOn with
  | nil => simp at h
  | append_singleton l e =>
    simp only [swapRemove, List.getLast?_append, List.getLast?_singleton, Option.some_or, List.length_append,
      List.length_singleton]
    by_cases hi : i < l.length
    · rw [if_pos (by omega), List.set_append_left _ _ hi, List.dropLast_concat, List.getElem_append_left hi]
      have h1 : (l[i] :: l.set i e).Perm (l[i] :: e :: l.eraseIdx i) := (List.set_perm_cons_eraseIdx hi e).cons _
      have h2 : (e :: l[i] :: l.eraseIdx i).Perm (e :: l) := (List.getElem_cons_eraseIdx_perm hi).cons _
      exact h1.trans ((List.Perm.swap _ _ _).trans (h2.trans (List.perm_append_singleton e l).symm))
    · have hi' : i = l.length := by simp at h; omega
      subst hi'
      rw [if_neg (by omega), List.dropLast_concat, List.getElem_append_right (Nat.le_refl _)]
      simpa using (List.perm_append_singleton e l).symm

theorem nodup_swapRemove {l : List (K × P)} {i : ℕ} (hl : (l.map Prod.fst).Nodup) (h : i < l.length) :
    ((swapRemove l i).map Prod.fst).Nodup := by
  have h1 := ((swapRemove_perm h).map Prod.fst).nodup_iff.mpr hl
  exact (List.nodup_cons.mp h1).2

theorem mem_swapRemove {l : List (K × P)} {i : ℕ} (hl : (l.map Prod.fst).Nodup) (h : i < l.length) {e : K × P} :
    e ∈ swapRemove l i ↔ e ∈ l ∧ e.1 ≠ l[i].1 := by
  have h1 := ((swapRemove_perm h).map Prod.fst).nodup_iff.mpr hl
  have h2 := (List.nodup_cons.mp h1).1
  have hmem : e ∈ l ↔ e = l[i] ∨ e ∈ swapRemove l i := by
    rw [← (swapRemove_perm h).mem_iff, List.mem_cons]
  constructor
  · exact fun he => ⟨hmem.mpr (Or.inr he), fun hk => h2 (hk ▸ List.mem_map_of_mem he)⟩
  · rintro ⟨he, hk⟩
    exact (hmem.mp he).resolve_left fun h' => hk (by rw [h'])

theorem eq_of_key {l : List (K × P)} (hl : (l.map Prod.fst).Nodup) {k : K} {p p' : P} (h : (k, p) ∈ l)
    (h' : (k, p') ∈ l) : p = p' :=
  congrArg Prod.snd (List.inj_on_of_nodup_map hl h h' rfl)

section Least

variable [LinearOrder P]

/-- The leftmost entry of least priority, with its index. -/
def least : List (K × P) → Option (ℕ × (K × P))
  | [] => none
  | e :: l =>
    match least l with
    | none => some (0, e)
    | some (i, e') => if e.2 ≤ e'.2 then some (0, e) else some (i + 1, e')

theorem least_none {l : List (K × P)} (h : least l = none) : l = [] := by
  cases l with
  | nil => rfl
  | cons e l =>
    simp only [least] at h
    split at h
    · cases h
    · split_ifs at h

theorem least_some {l : List (K × P)} {i : ℕ} {e : K × P} (h : least l = some (i, e)) :
    (∃ hi : i < l.length, l[i] = e) ∧ ∀ e' ∈ l, e.2 ≤ e'.2 := by
  induction l generalizing i e with
  | nil => cases h
  | cons e₀ l ih =>
    simp only [least] at h
    split at h
    · rename_i hn
      obtain rfl := least_none hn
      simp only [Option.some.injEq, Prod.mk.injEq] at h
      obtain ⟨rfl, rfl⟩ := h
      exact ⟨⟨by simp, rfl⟩, by simp⟩
    · rename_i j e₁ hs
      obtain ⟨⟨hj, he₁⟩, hmin⟩ := ih hs
      split_ifs at h with hle <;> simp only [Option.some.injEq, Prod.mk.injEq] at h <;> obtain ⟨rfl, rfl⟩ := h
      · refine ⟨⟨by simp, rfl⟩, fun e' he' => ?_⟩
        rcases List.mem_cons.mp he' with rfl | he'
        · exact le_rfl
        · exact le_trans hle (hmin e' he')
      · refine ⟨⟨by simp; omega, by simpa using he₁⟩, fun e' he' => ?_⟩
        rcases List.mem_cons.mp he' with rfl | he'
        · exact le_of_lt (lt_of_not_ge hle)
        · exact hmin e' he'

end Least

section Ops

variable [DecidableEq K]

def get (q : SwapArray K P) (k : K) : Option P := (q.entries.find? (fun e => e.1 = k)).map Prod.snd

theorem get_eq_some {q : SwapArray K P} {k : K} {p : P} : q.get k = some p ↔ (k, p) ∈ q.entries := by
  unfold get
  rw [Option.map_eq_some_iff]
  constructor
  · rintro ⟨⟨k', p'⟩, hf, rfl⟩
    have hk := List.find?_some hf
    simp only [decide_eq_true_eq] at hk
    subst hk
    exact List.mem_of_find?_eq_some hf
  · intro h
    cases hf : q.entries.find? (fun e => e.1 = k) with
    | none => simpa using List.find?_eq_none.mp hf _ h
    | some e =>
      have hk := List.find?_some hf
      simp only [decide_eq_true_eq] at hk
      obtain ⟨k', p'⟩ := e
      subst hk
      exact ⟨_, rfl, eq_of_key q.nodup (List.mem_of_find?_eq_some hf) h⟩

/-- Two arrays read as `f` and as `f` changed at `k` when their entries say so. -/
theorem get_update {q q' : SwapArray K P} {k : K} {o : Option P}
    (h : ∀ k' p, (k', p) ∈ q'.entries ↔ if k' = k then o = some p else (k', p) ∈ q.entries) :
    q'.get = Function.update q.get k o := by
  funext k'
  refine Option.ext fun p => ?_
  rw [get_eq_some, h]
  by_cases hk : k' = k
  · subst hk; simp
  · rw [if_neg hk, Function.update_of_ne hk, get_eq_some]

def push (q : SwapArray K P) (k : K) (p : P) : SwapArray K P :=
  if h : k ∈ q.entries.map Prod.fst then
    ⟨q.entries.map fun e => if e.1 = k then (k, p) else e, by
      have : (q.entries.map fun e => if e.1 = k then (k, p) else e).map Prod.fst = q.entries.map Prod.fst := by
        rw [List.map_map]
        refine List.map_congr_left fun e _ => ?_
        simp only [Function.comp]
        split_ifs with he
        · exact he.symm
        · rfl
      rw [this]; exact q.nodup⟩
  else ⟨q.entries ++ [(k, p)], by
    rw [List.map_append, List.nodup_append]
    refine ⟨q.nodup, by simp, fun a ha b hb => ?_⟩
    simp only [List.map_cons, List.map_nil, List.mem_singleton] at hb
    rintro rfl
    exact h (hb ▸ ha)⟩

theorem get_push (q : SwapArray K P) (k : K) (p : P) : (q.push k p).get = Function.update q.get k (some p) := by
  refine get_update fun k' p' => ?_
  unfold push
  split_ifs with h hk hk
  · subst hk
    obtain ⟨⟨k₀, p₀⟩, he, rfl⟩ := List.mem_map.mp h
    simp only [List.mem_map, Option.some.injEq]
    constructor
    · rintro ⟨e, _, he'⟩
      split_ifs at he' with hk
      · exact congrArg Prod.snd he'
      · exact absurd (congrArg Prod.fst he') hk
    · rintro rfl
      exact ⟨_, he, by simp⟩
  · simp only [List.mem_map]
    constructor
    · rintro ⟨e, he, he'⟩
      split_ifs at he' with hk'
      · exact absurd (congrArg Prod.fst he').symm hk
      · exact he' ▸ he
    · exact fun he => ⟨_, he, by rw [if_neg hk]⟩
  · subst hk
    simp only [List.mem_append, List.mem_singleton, Prod.mk.injEq, true_and, Option.some.injEq]
    constructor
    · rintro (he | rfl)
      · exact absurd (List.mem_map_of_mem he) h
      · rfl
    · rintro rfl; exact Or.inr rfl
  · simp [hk]

/-- The index of a key. -/
def idx (q : SwapArray K P) (k : K) : Option ℕ := q.entries.findIdx? (fun e => e.1 = k)

theorem idx_some {q : SwapArray K P} {k : K} {i : ℕ} (h : q.idx k = some i) :
    ∃ hi : i < q.entries.length, q.entries[i].1 = k := by
  obtain ⟨hi, hk, _⟩ := List.findIdx?_eq_some_iff_getElem.mp h
  exact ⟨hi, by simpa using hk⟩

/-- Remove the entry at a found index, if any. -/
def removeAt (q : SwapArray K P) (o : Option ℕ) : SwapArray K P :=
  match o with
  | none => q
  | some i =>
    if h : i < q.entries.length then ⟨swapRemove q.entries i, nodup_swapRemove q.nodup h⟩ else q

theorem get_removeAt {q : SwapArray K P} {i : ℕ} {k : K} (h : ∃ hi : i < q.entries.length, q.entries[i].1 = k) :
    (q.removeAt (some i)).get = Function.update q.get k none := by
  obtain ⟨hi, rfl⟩ := h
  refine get_update fun k' p => ?_
  simp only [removeAt, dif_pos hi, mem_swapRemove q.nodup hi]
  split_ifs with hk <;> simp [hk]

variable [LinearOrder P]

instance : KeyedQueue (SwapArray K P) K P where
  empty := ⟨[], by simp⟩
  push := push
  remove q k := q.removeAt (q.idx k)
  peek q := (least q.entries).map Prod.snd
  pop q := q.removeAt ((least q.entries).map Prod.fst)
  get := get
  get_empty _ := rfl
  get_push := get_push
  get_remove q k := by
    cases h : q.idx k with
    | some i => exact get_removeAt (idx_some h)
    | none =>
      refine get_update fun k' p => ?_
      split_ifs with hk
      · subst hk
        simp only [iff_false]
        intro he
        simpa using List.findIdx?_eq_none_iff.mp h _ he
      · exact Iff.rfl
  get_of_peek_none q h k := by
    rw [Option.map_eq_none_iff] at h
    simp [get, least_none h]
  get_of_peek q k p h := by
    obtain ⟨⟨i, e⟩, hl, rfl⟩ := Option.map_eq_some_iff.mp h
    obtain ⟨⟨hi, he⟩, _⟩ := least_some hl
    exact get_eq_some.mpr (he ▸ List.getElem_mem hi)
  le_of_peek q k p h k' p' h' := by
    obtain ⟨⟨i, e⟩, hl, rfl⟩ := Option.map_eq_some_iff.mp h
    exact (least_some hl).2 _ (get_eq_some.mp h')
  get_pop q k p h := by
    obtain ⟨⟨i, e⟩, hl, rfl⟩ := Option.map_eq_some_iff.mp h
    obtain ⟨⟨hi, he⟩, _⟩ := least_some hl
    rw [hl]
    exact get_removeAt ⟨hi, by rw [he]⟩

end Ops

end SwapArray
