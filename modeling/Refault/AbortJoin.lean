import Refault.History

/-!
# Refault.AbortJoin — aborts and join handles

What a `TaskHandle` resolves to is what became of the future, and what an abort does depends on what the task
does at that moment: its future goes at once, or after the poll it is in if that returns `Poll::Pending`, or
there is none.
-/

namespace Refault

namespace Exec

variable {V : Type}

/-- The handle of `id` resolves to `r`, at its next poll or before. -/
def Resolves (e : Exec V) (id : Id) (r : Option V) : Prop := e.pollHandle id = some r ∨ .joined id r ∈ e.log

section Handle

variable {e : Exec V} {id : Id} (hA : e.Accounts id)
include hA

/-- While there is a future the handle is pending. -/
theorem Accounts.not_resolves (ho : e.Open id) (r : Option V) : ¬ e.Resolves id r := by
  obtain ⟨-, -, hj, hc⟩ := hA.opened ho
  rintro (h | h)
  · rw [pollHandle, hc] at h
    cases h
  · rw [← mem_joins, hj] at h
    cases h

/-- Afterwards it resolves to what the future returned. -/
theorem Accounts.resolves (ho : ¬ e.Open id) :
    ∃ r b, drops id e.log = [b] ∧ rets id e.log = r.toList ∧ ∀ r', e.Resolves id r' ↔ r' = r := by
  obtain ⟨r, b, hd, hr, -, ⟨hj, hc⟩ | ⟨hj, hc⟩⟩ := hA.closed ho <;> refine ⟨r, b, hd, hr, fun r' => ?_⟩
  · have hp : e.pollHandle id = some r := by
      rw [pollHandle, hc]
      cases r <;> rfl
    unfold Resolves
    rw [hp, ← mem_joins, hj]
    simp [eq_comm]
  · have hp : e.pollHandle id = none := by rw [pollHandle, hc]
    unfold Resolves
    rw [hp, ← mem_joins, hj]
    simp

theorem Accounts.resolves_some (v : V) : e.Resolves id (some v) ↔ .ret id (some v) ∈ e.log := by
  rw [← mem_rets]
  by_cases ho : e.Open id
  · have hr := (hA.opened ho).2.1
    simp [hr, hA.not_resolves ho]
  · obtain ⟨r, b, -, hr, hres⟩ := hA.resolves ho
    rw [hres, hr]
    cases r <;> simp [eq_comm]

theorem Accounts.resolves_none :
    e.Resolves id none ↔ (∃ b, .drop id b ∈ e.log) ∧ ∀ v, .ret id (some v) ∉ e.log := by
  simp only [← mem_rets, ← mem_drops]
  by_cases ho : e.Open id
  · have hd := (hA.opened ho).1
    simp [hd, hA.not_resolves ho]
  · obtain ⟨r, b, hd, hr, hres⟩ := hA.resolves ho
    rw [hres, hr, hd]
    cases r <;> simp

end Handle

end Exec

namespace SimCx

variable {V Q : Type} [KeyedQueue Q Loc Instant] {b : SimBuilder} {s s' : SimCx V Q}

/-- `AbortHandle::abort` on a task without a future of its own to drop. -/
theorem abort_dead {id : Id} (hu : s.InUser) (hc : s.cell = .free) (hs : s.ex.state id ≠ .taskEnd)
    (hB : s.Base) (hl : (s.ex.state id).live = false) :
    s.step (.user (.abort id)) = .ok { s with ex := s.ex.note (.abort id) } := by
  obtain ⟨f, rest, hk, hf⟩ := hu
  rcases Exec.abort_spec hB.exec hs with ⟨-, ha⟩ | ⟨hl', -⟩ | ⟨hl', -⟩
  · simp only [step, hk, hf, if_true, userOp, knows, hs, ne_eq, not_false_eq_true, decide_true, abort, borrow,
      hc, ha]
    rfl
  · rw [hl] at hl'; cases hl'
  · rw [hl] at hl'; cases hl'

/-- `AbortHandle::abort` on a live task that is not being polled: the destructor of its future runs on top. -/
theorem abort_live {id : Id} (hB : s.Base) (h : s.step (.user (.abort id)) = .ok s')
    (hl : (s.ex.state id).live = true) (hp : s.ex.polling ≠ some id) :
    s'.ex.log = s.ex.log ++ [.abort id, .drop id false] ∧ s'.stack = .discard id false s.currentNode :: s.stack ∧
      s'.ex.Dead id := by
  have hs : s.ex.state id ≠ .taskEnd := fun h => by rw [h] at hl; cases hl
  rcases Exec.abort_spec hB.exec hs with ⟨hl', -⟩ | ⟨-, hp', -⟩ | ⟨-, -, ha⟩
  · rw [hl] at hl'; cases hl'
  · exact absurd hp' hp
  · simp only [step] at h
    split at h
    · cases h
    · rename_i f rest hk
      split_ifs at h
      simp only [userOp, knows, hs, ne_eq, not_false_eq_true, decide_true, if_true] at h
      obtain ⟨hc, h⟩ := borrow_bind.mp h
      obtain ⟨⟨t, e⟩, he, h⟩ := call_bind.mp h
      rw [ha] at he
      cases he
      cases h
      refine ⟨by simp [Exec.dropUnsent], hk ▸ rfl, ?_⟩
      simp [Exec.Dead, Exec.dropUnsent, TaskState.live]

/-- **Abort and join agree**, for every task in every reachable state.  The handle resolves to `v` iff a poll
returned `v`, and to `TaskAborted` iff the future was dropped and no poll did.  An abort of a live task that
is not being polled drops the future inside the call, and the task is not polled again.  The poll of a task
ends with a value, which the handle gets whether or not the task was aborted meanwhile; or it returns
`Poll::Pending`, and then the future is dropped, and the task not polled again, iff it was aborted during this
poll.  An abort of a task that is complete or aborted is only recorded. -/
theorem abort_and_join (hr : Reachable b s) (id : Id) :
    (∀ v, s.ex.Resolves id (some v) ↔ .ret id (some v) ∈ s.ex.log) ∧
    (s.ex.Resolves id none ↔ (∃ b, .drop id b ∈ s.ex.log) ∧ ∀ v, .ret id (some v) ∉ s.ex.log) ∧
    (∀ s', s.step (.user (.abort id)) = .ok s' → (s.ex.state id).live = true → s.ex.polling ≠ some id →
      s'.ex.log = s.ex.log ++ [.abort id, .drop id false] ∧ s'.stack = .discard id false s.currentNode :: s.stack ∧
        ∀ s'', Machine.Steps step s' s'' → polls id s''.ex.log = polls id s'.ex.log) ∧
    (∀ l s', s.step l = .ok s' → s.ex.polling = some id → s'.ex.polling ≠ some id →
      (∃ v, s'.ex.log = s.ex.log ++ [.ret id (some v), .drop id true] ∧ s'.ex.Resolves id (some v)) ∨
      (abortedSince id s.ex.log = true ∧ s'.ex.log = s.ex.log ++ [.ret id none, .drop id true] ∧
        s'.ex.Resolves id none ∧ ∀ s'', Machine.Steps step s' s'' → polls id s''.ex.log = polls id s'.ex.log) ∨
      abortedSince id s.ex.log = false ∧ s'.ex.log = s.ex.log ++ [.ret id none] ∧
        s'.ex.tasks id = some ⟨some ⟨id, true⟩⟩) ∧
    (s.InUser → s.cell = .free → s.ex.state id ≠ .taskEnd → (s.ex.state id).live = false →
      s.step (.user (.abort id)) = .ok { s with ex := s.ex.note (.abort id) }) := by
  have hB := hr.base
  have hA := hr.accounts id
  refine ⟨hA.resolves_some, hA.resolves_none, fun s' h hl hp => ?_, fun l s' h hp hp' => ?_,
    fun hu hc hs hl => abort_dead hu hc hs hB hl⟩
  · obtain ⟨h1, h2, h3⟩ := abort_live hB h hl hp
    exact ⟨h1, h2, fun s'' h'' => ((step_base hB h).dead h'' h3).2⟩
  · have htr := hr.tracked id hp
    rcases (step_next hB h).act hB with he | he
    · rw [he] at hp'
      exact absurd hp hp'
    · rcases he.pollEnd hp with h0 | h0
      · exact absurd h0 hp'
      · cases h0 with
        | ready v hlog hc hd => exact Or.inl ⟨v, hlog, Or.inl hc⟩
        | aborted hs hlog hc hd =>
          exact Or.inr (Or.inl ⟨htr.mp hs, hlog, Or.inl hc, fun s'' h'' => ((step_base hB h).dead h'' hd).2⟩)
        | pending hs hlog ht =>
          refine Or.inr (Or.inr ⟨?_, hlog, ht⟩)
          by_contra hne
          rw [htr.mpr (by simpa using hne)] at hs
          cases hs

/-- The root task spawns a task, which aborts itself and returns a value. -/
def abortSelfRun : List (Label ℕ) :=
  [.user (.done none), .run [], .user (.spawn 0), .user (.done none), .run [], .user (.abort 2),
    .user (.done (some 7))]

theorem abort_and_join_self : ∃ s : ArraySim, Machine.run step (install epoch) abortSelfRun = .ok s ∧
    s.ex.Resolves 2 (some 7) := by
  obtain ⟨s, hs, hq⟩ : ∃ s : ArraySim, Machine.run step (install epoch) abortSelfRun = .ok s ∧
      s.ex.log.getLast? = some (.drop 2 true) ∧ s.ex.log.contains (.ret 2 (some 7)) = true := by
    obtain ⟨s, hs, hq⟩ := Machine.exists_of_run (f := fun s : ArraySim =>
      (s.ex.log.getLast?, s.ex.log.contains (.ret 2 (some 7)))) (v := (some (.drop 2 true), true))
      (show (Machine.run step (install epoch) abortSelfRun).map _ = .ok _ from rfl)
    exact ⟨s, hs, (Prod.mk.inj hq).1, (Prod.mk.inj hq).2⟩
  exact ⟨s, hs, ((abort_and_join ⟨_, hs⟩ 2).1 7).mpr (by simpa using hq.2)⟩

end SimCx

end Refault
