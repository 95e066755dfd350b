import Mathlib.Logic.Function.Basic
import Refault.Lib.Machine
import Refault.Basic

/-!
# Refault.SendBind — `SimBound`

`SimBound` makes a value `Send` and `Sync`; what justifies it is that every use checks first that the
wrapper's anchor is the one of the simulation on the current thread.  A use is followed access by access
(`Trace`): the checks, with the anchor they find, and what is done to the wrapped value.  `Threads` is the
process: the counter that anchors are drawn from, the simulation installed on every thread (one at most, since
`once_cell` is set once), and the wrappers, which any thread may use.
-/

namespace Refault

/-- What is done to a wrapped value. -/
inductive Touch
  | read
  | write
  | poll
  | clone
  | moveOut
  | drop
deriving DecidableEq

inductive Access
  /-- `assert_eq!(self.id, Self::current_anchor())`, with the current anchor; `none` is outside of any
  simulation -/
  | check (current : Option ℕ)
  | touch (k : Touch)
deriving DecidableEq

inductive Outcome
  | returned
  | panicked
  | aborted
deriving DecidableEq

/-- The accesses of a use, and how it ends. -/
structure Trace where
  accesses : List Access
  outcome : Outcome
deriving DecidableEq

namespace Trace

def touch (k : Touch) : Trace := ⟨[.touch k], .returned⟩

/-- What comes after a part that returned. -/
def andThen (a b : Trace) : Trace :=
  match a.outcome with
  | .returned => ⟨a.accesses ++ b.accesses, b.outcome⟩
  | _ => a

/-- `abort_unwind`. -/
def abortUnwind (a : Trace) : Trace :=
  match a.outcome with
  | .panicked => { a with outcome := .aborted }
  | _ => a

/-- A panic of `a` unwinds through the drop `b`. -/
def unwindThrough (a b : Trace) : Trace :=
  match a.outcome with
  | .panicked => ⟨a.accesses ++ b.accesses, if b.outcome = .returned then .panicked else .aborted⟩
  | _ => a

end Trace

namespace SimBound

variable (id : ℕ) (current : Option ℕ)

/-! The methods of a wrapper with anchor `id`, on a thread whose simulation has anchor `current`. -/

def check : Trace := ⟨[.check current], if current = some id then .returned else .panicked⟩

def deref : Trace := (check id current).andThen (.touch .read)

def derefMut : Trace := (check id current).andThen (.touch .write)

/-- `&mut *this.get_unchecked_mut()` is a `&mut SimBound<T>` where a `&mut T` is expected: it is coerced by
`deref_mut`. -/
def asPinMut : Trace := derefMut id current

/-- `&*this.get_ref()`, coerced by `deref`. -/
def asPinRef : Trace := deref id current

def poll : Trace := (asPinMut id current).andThen (.touch .poll)

/-- The derived `Clone` clones the fields; that of `ManuallyDrop` clones the value. -/
def clone : Trace := .touch .clone

/-- `Drop`. -/
def drop : Trace := (check id current).abortUnwind.andThen (.touch .drop)

/-- A panic of the check drops `self`. -/
def unwrapSimBound : Trace := ((check id current).unwindThrough (drop id current)).andThen (.touch .moveOut)

end SimBound

/-- The uses of a wrapper. -/
inductive BoundOp
  | deref
  | derefMut
  | asPinMut
  | asPinRef
  | poll
  | clone
  | unwrapSimBound
  | drop
deriving DecidableEq

def BoundOp.trace (id : ℕ) (current : Option ℕ) : BoundOp → Trace
  | .deref => SimBound.deref id current
  | .derefMut => SimBound.derefMut id current
  | .asPinMut => SimBound.asPinMut id current
  | .asPinRef => SimBound.asPinRef id current
  | .poll => SimBound.poll id current
  | .clone => SimBound.clone
  | .unwrapSimBound => SimBound.unwrapSimBound id current
  | .drop => SimBound.drop id current

/-- The wrapper is gone after it. -/
def BoundOp.consumes : BoundOp → Bool
  | .unwrapSimBound | .drop => true
  | _ => false

/-- A use that was made: on which thread, of a wrapper with which anchor. -/
structure BoundUse where
  thread : ℕ
  anchor : ℕ
  op : BoundOp
  trace : Trace

/-- `next` is the static of `ThreadAnchor::new`. -/
structure Threads where
  next : ℕ
  anchor : ℕ → Option ℕ
  wrappers : List (Option ℕ)
  aborted : Bool
  uses : List BoundUse

inductive ThreadLabel
  /-- `ContextInstallGuard::new` on a thread -/
  | install (thread : ℕ)
  /-- `SimBound::from` on a thread -/
  | wrap (thread : ℕ)
  | use (thread wrapper : ℕ) (op : BoundOp)

/-- `ThreadAnchor::new`: the counter after it, and the id; `none` is the panic of `checked_add(1)`. -/
def ThreadAnchor.new (next : ℕ) : Option (ℕ × ℕ) := if next + 1 < 2 ^ 64 then some (next + 1, next + 1) else none

namespace Threads

def start : Threads := ⟨0, fun _ => none, [], false, []⟩

/-- Panics are caught; after an abort there is no step. -/
def step (s : Threads) (l : ThreadLabel) : Except Halt Threads :=
  if s.aborted then .error .disabled
  else
    match l with
    | .install thread =>
      match ThreadAnchor.new s.next, s.anchor thread with
      | none, _ => .ok s
      -- `once_cell.set(..).ok().unwrap()` panics
      | some (next, _), some _ => .ok { s with next := next }
      | some (next, id), none => .ok { s with next := next, anchor := Function.update s.anchor thread (some id) }
    | .wrap thread =>
      match s.anchor thread with
      | none => .ok s
      | some id => .ok { s with wrappers := s.wrappers ++ [some id] }
    | .use thread wrapper op =>
      match s.wrappers[wrapper]? with
      | some (some id) =>
        let trace := op.trace id (s.anchor thread)
        let wrappers := if op.consumes ∧ trace.outcome ≠ .aborted then s.wrappers.set wrapper none else s.wrappers
        .ok { s with
          wrappers := if op = .clone then wrappers ++ [some id] else wrappers
          aborted := decide (trace.outcome = .aborted)
          uses := s.uses ++ [⟨thread, id, op, trace⟩] }
      | _ => .error .disabled

def Reachable (s : Threads) : Prop := Machine.Steps step start s

end Threads

/-- The value is touched only after a check of this use that has found the wrapper's own anchor; without one
the use panics or aborts. -/
def BoundUse.Guarded (u : BoundUse) : Prop :=
  (∀ pre k post, u.trace.accesses = pre ++ .touch k :: post → .check (some u.anchor) ∈ pre) ∧
    (.check (some u.anchor) ∉ u.trace.accesses → u.trace.outcome ≠ .returned)

namespace SimBound

/-- What a check that succeeds, or fails, makes of a use. -/
theorem trace_of_pass (id : ℕ) {op : BoundOp} (hop : op ≠ .clone) :
    ∃ ks : List Touch, op.trace id (some id) = ⟨.check (some id) :: ks.map .touch, .returned⟩ := by
  cases op with
  | clone => exact absurd rfl hop
  | deref | asPinRef =>
    exact ⟨[.read], by simp [BoundOp.trace, asPinRef, deref, check, Trace.andThen, Trace.touch]⟩
  | derefMut | asPinMut =>
    exact ⟨[.write], by simp [BoundOp.trace, asPinMut, derefMut, check, Trace.andThen, Trace.touch]⟩
  | poll =>
    exact ⟨[.write, .poll], by simp [BoundOp.trace, poll, asPinMut, derefMut, check, Trace.andThen, Trace.touch]⟩
  | unwrapSimBound =>
    exact ⟨[.moveOut],
      by simp [BoundOp.trace, unwrapSimBound, check, Trace.unwindThrough, Trace.andThen, Trace.touch]⟩
  | drop => exact ⟨[.drop], by simp [BoundOp.trace, drop, check, Trace.abortUnwind, Trace.andThen, Trace.touch]⟩

theorem trace_of_fail {id : ℕ} {current : Option ℕ} (hne : current ≠ some id) {op : BoundOp} (hop : op ≠ .clone) :
    (∀ a ∈ (op.trace id current).accesses, a = .check current) ∧ (op.trace id current).outcome ≠ .returned := by
  cases op with
  | clone => exact absurd rfl hop
  | deref | asPinRef => simp [BoundOp.trace, asPinRef, deref, check, Trace.andThen, hne]
  | derefMut | asPinMut => simp [BoundOp.trace, asPinMut, derefMut, check, Trace.andThen, hne]
  | poll => simp [BoundOp.trace, poll, asPinMut, derefMut, check, Trace.andThen, hne]
  | unwrapSimBound =>
    simp [BoundOp.trace, unwrapSimBound, drop, check, Trace.unwindThrough, Trace.abortUnwind, Trace.andThen, hne]
  | drop => simp [BoundOp.trace, drop, check, Trace.abortUnwind, Trace.andThen, hne]

/-- Every use but a clone is guarded. -/
theorem guarded_iff (thread id : ℕ) (current : Option ℕ) (op : BoundOp) :
    BoundUse.Guarded ⟨thread, id, op, op.trace id current⟩ ↔ op ≠ .clone := by
  constructor
  · rintro h rfl
    have hmem := h.1 [] .clone [] rfl
    exact absurd hmem List.not_mem_nil
  · intro hop
    by_cases hc : current = some id
    · subst hc
      obtain ⟨ks, htrace⟩ := trace_of_pass id hop
      refine ⟨fun pre k post hsplit => ?_, fun hno => ?_⟩
      · simp only [htrace] at hsplit
        cases pre with
        | nil => cases hsplit
        | cons a pre =>
          obtain ⟨rfl, -⟩ := List.cons.inj hsplit
          exact List.mem_cons_self
      · simp [htrace] at hno
    · obtain ⟨hall, hend⟩ := trace_of_fail hc hop
      refine ⟨fun pre k post hsplit => ?_, fun _ => hend⟩
      have htouch := hall (.touch k) (by rw [show (op.trace id current).accesses = _ from hsplit]; simp)
      cases htouch

end SimBound

namespace Threads

variable {s s' : Threads}

/-- Anchors are drawn once, and every use was made with the anchor of its thread. -/
structure Inv (s : Threads) : Prop where
  anchor_le : ∀ t a, s.anchor t = some a → a ≤ s.next
  unique : ∀ t t' a, s.anchor t = some a → s.anchor t' = some a → t = t'
  uses : ∀ u ∈ s.uses, ∃ current, u.trace = u.op.trace u.anchor current ∧ ∀ a, current = some a →
    s.anchor u.thread = some a

theorem inv_start : start.Inv where
  anchor_le t a h := by cases h
  unique t t' a h := by cases h
  uses u hu := absurd hu List.not_mem_nil

theorem Inv.step (hI : s.Inv) {l : ThreadLabel} (h : s.step l = .ok s') : s'.Inv := by
  unfold Threads.step at h
  split_ifs at h
  cases l with
  | install t =>
    dsimp only at h
    split at h
    · cases h
      exact hI
    · rename_i next id _ hnew hold
      cases h
      unfold ThreadAnchor.new at hnew
      split_ifs at hnew
      cases hnew
      exact ⟨fun t a ha => (hI.anchor_le t a ha).trans (Nat.le_succ _), hI.unique, hI.uses⟩
    · rename_i next id hnew hold
      cases h
      unfold ThreadAnchor.new at hnew
      split_ifs at hnew
      cases hnew
      have hfresh : ∀ t', s.anchor t' ≠ some (s.next + 1) := by
        intro t' ht'
        exact absurd (hI.anchor_le t' _ ht') (Nat.not_succ_le_self _)
      refine ⟨fun t' a ha => ?_, fun t₁ t₂ a h₁ h₂ => ?_, fun u hu => ?_⟩
      · by_cases ht : t' = t
        · subst ht
          simp at ha
          exact ha.ge
        · simp [ht] at ha
          exact (hI.anchor_le t' a ha).trans (Nat.le_succ _)
      · by_cases ht₁ : t₁ = t <;> by_cases ht₂ : t₂ = t
        · rw [ht₁, ht₂]
        · simp [ht₁] at h₁
          simp [ht₂, ← h₁] at h₂
          exact absurd h₂ (hfresh t₂)
        · simp [ht₂] at h₂
          simp [ht₁, ← h₂] at h₁
          exact absurd h₁ (hfresh t₁)
        · simp [ht₁] at h₁
          simp [ht₂] at h₂
          exact hI.unique t₁ t₂ a h₁ h₂
      · obtain ⟨current, htrace, hcur⟩ := hI.uses u hu
        refine ⟨current, htrace, fun a ha => ?_⟩
        have hset := hcur a ha
        have hne : u.thread ≠ t := by
          intro heq
          rw [heq, hold] at hset
          cases hset
        simpa [hne] using hset
  | wrap t =>
    dsimp only at h
    split at h <;> cases h
    · exact hI
    · exact ⟨hI.anchor_le, hI.unique, hI.uses⟩
  | use t w op =>
    dsimp only at h
    split at h
    · cases h
      refine ⟨hI.anchor_le, hI.unique, fun u hu => ?_⟩
      rcases List.mem_append.mp hu with hu | hu
      · exact hI.uses u hu
      · rw [List.mem_singleton.mp hu]
        exact ⟨s.anchor t, rfl, fun a ha => ha⟩
    · cases h

theorem Reachable.inv (hr : Reachable s) : s.Inv := Machine.Steps.inv (fun _ _ _ hI h => hI.step h) hr inv_start

/-- **Every use of a `SimBound` but a clone is guarded.**  No two simulations have the same anchor; a use
touches the value after a check that has found the wrapper's anchor on its own thread, and panics or aborts
otherwise, if and only if it is not a clone. -/
theorem simBound_guarded_iff (hr : Reachable s) :
    (∀ t t' a, s.anchor t = some a → s.anchor t' = some a → t = t') ∧
    ∀ u ∈ s.uses, (u.Guarded ↔ u.op ≠ .clone) ∧
      (.check (some u.anchor) ∈ u.trace.accesses → s.anchor u.thread = some u.anchor) := by
  have hI := hr.inv
  refine ⟨hI.unique, fun u hu => ?_⟩
  obtain ⟨current, htrace, hcur⟩ := hI.uses u hu
  obtain ⟨thread, id, op, trace⟩ := u
  obtain rfl : trace = op.trace id current := htrace
  refine ⟨SimBound.guarded_iff thread id current op, fun hmem => ?_⟩
  by_cases hc : current = some id
  · exact hcur id hc
  · by_cases hop : op = .clone
    · subst hop
      simp [BoundOp.trace, SimBound.clone, Trace.touch] at hmem
    · have := (SimBound.trace_of_fail hc hop).1 _ hmem
      simp only [Access.check.injEq] at this
      exact absurd this.symm hc

/-- A value wrapped on thread 0 is read there and dropped on thread 1, whose simulation is another. -/
def dropElsewhere : List ThreadLabel := [.install 0, .install 1, .wrap 0, .use 0 0 .deref, .use 1 0 .drop]

theorem simBound_guarded_iff_drop : ∃ s, Machine.run step start dropElsewhere = .ok s ∧ s.aborted = true ∧
    ∀ u ∈ s.uses, u.Guarded := by
  obtain ⟨s, hs, hq⟩ : ∃ s, Machine.run step start dropElsewhere = .ok s ∧
      (s.aborted, s.uses.map (·.op)) = (true, [.deref, .drop]) := Machine.exists_of_run rfl
  obtain ⟨habort, hops⟩ := Prod.mk.inj hq
  refine ⟨s, hs, habort, fun u hu => ((simBound_guarded_iff ⟨_, hs⟩).2 u hu).1.mpr fun hclone => ?_⟩
  have hmem : BoundOp.clone ∈ s.uses.map (·.op) := List.mem_map.mpr ⟨u, hu, hclone⟩
  rw [hops] at hmem
  simp at hmem

/-- A value wrapped on thread 0 is cloned on thread 1, where there is no simulation. -/
def cloneElsewhere : List ThreadLabel := [.install 0, .wrap 0, .use 1 0 .clone]

theorem simBound_clone_unguarded : ∃ s, Machine.run step start cloneElsewhere = .ok s ∧ s.anchor 1 = none ∧
    ∃ u ∈ s.uses, u.thread = 1 ∧ u.trace = ⟨[.touch .clone], .returned⟩ ∧ ¬ u.Guarded := by
  obtain ⟨s, hs, hq⟩ : ∃ s, Machine.run step start cloneElsewhere = .ok s ∧
      (s.anchor 1, s.uses.map fun u => (u.thread, u.trace)) = (none, [(1, ⟨[.touch .clone], .returned⟩)]) :=
    Machine.exists_of_run rfl
  obtain ⟨hnone, huses⟩ := Prod.mk.inj hq
  have hmem : ((1, ⟨[.touch .clone], .returned⟩) : ℕ × Trace) ∈ s.uses.map fun u => (u.thread, u.trace) := by
    rw [huses]
    exact List.mem_cons_self
  obtain ⟨u, hu, heq⟩ := List.mem_map.mp hmem
  obtain ⟨hthread, htrace⟩ := Prod.mk.inj heq
  refine ⟨s, hs, hnone, u, hu, hthread, htrace, fun hg => ?_⟩
  exact absurd (hg.1 [] .clone [] (by rw [htrace]; rfl)) List.not_mem_nil

end Threads

end Refault
