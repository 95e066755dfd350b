import Refault.Panics

/-!
# Refault.Invariant — the executor in every reachable state

The representation invariant of the executor, read off `Exec.Inv`, over every run of the simulation: calls
made during a poll, in a destructor or in a callback are steps like any other.
-/

namespace Refault

namespace SimCx

variable {V Q : Type} [KeyedQueue Q Loc Instant]

/-- **The executor's invariant** holds in every reachable state: the queue has no duplicates and holds the
tasks in a queued state, a task has an entry until it is complete or aborted, an entry holds the future of a
live task unless that is being polled, and a node's set is the set of its entries.  So no assertion of the
executor about itself is reached. -/
theorem executor_invariant {b : SimBuilder} {s : SimCx V Q} (hr : Reachable b s) :
    (s.ex.readyQueue.Nodup ∧ ∀ id, id ∈ s.ex.readyQueue ↔
      s.ex.state id = .ready ∨ s.ex.state id = .abortedReady ∨ s.ex.state id = .completeReady) ∧
    ((∀ id ∈ s.ex.readyQueue, (s.ex.tasks id).isSome) ∧
      ∀ id, s.ex.state id ≠ .taskEnd → s.ex.state id ≠ .complete → s.ex.state id ≠ .aborted →
        (s.ex.tasks id).isSome) ∧
    (∀ id entry, s.ex.tasks id = some entry → (entry.task.isSome ↔
      (s.ex.state id = .waiting ∨ s.ex.state id = .ready) ∧ s.ex.polling ≠ some id)) ∧
    (∀ n nd, s.ex.nodes[n]? = some nd → ∀ id, id ∈ nd.tasks ↔ (s.ex.tasks id).isSome ∧ s.ex.node id = n) ∧
    ∀ l x, x.inExecutor = true → s.step l ≠ .error (.panic (.site x)) := by
  have hB := hr.base
  have hI := hB.exec
  have hentry : ∀ id, (s.ex.state id).queued = true → (s.ex.tasks id).isSome := by
    intro id h
    rw [hI.isSome_iff]
    cases hs : s.ex.state id <;> simp [hs, TaskState.queued, TaskState.hasEntry] at h ⊢
  refine ⟨⟨hI.nodup, fun id => ?_⟩, ⟨fun id h => hentry id ((hI.queued id).mp h), fun id h1 h2 h3 => ?_⟩,
    fun id entry h => ?_, hI.node_tasks, fun l x hx h => ?_⟩
  · rw [hI.queued]
    cases s.ex.state id <;> simp [TaskState.queued]
  · rw [hI.isSome_iff]
    cases hs : s.ex.state id <;> simp [hs, TaskState.hasEntry] at h1 h2 h3 ⊢
  · rw [hI.tasks_eq] at h
    unfold Exec.expected at h
    cases hs : s.ex.state id <;> rw [hs] at h <;> cases h <;> simp
  · rcases step_site hB h with ⟨rfl, -⟩ | ⟨rfl, -⟩ <;> exact absurd hx (by decide)

/-- The root task spawns a task, aborts it while it is ready, and wakes itself. -/
def tombstoneRun : List (Label ℕ) :=
  [.user (.done none), .run [], .user (.spawn 0), .user (.abort 2), .user (.done none), .user (.wake 1),
    .user (.done none)]

/-- After that run the tombstone is in the queue, before the root task. -/
theorem executor_invariant_tombstone : ∃ s : ArraySim, Machine.run step (install epoch) tombstoneRun = .ok s ∧
    (s.ex.readyQueue, s.ex.state 2) = ([2, 1], .abortedReady) ∧ (s.ex.tasks 2).isSome := by
  obtain ⟨s, hs, hq⟩ : ∃ s : ArraySim, Machine.run step (install epoch) tombstoneRun = .ok s ∧
      (s.ex.readyQueue, s.ex.state 2) = ([2, 1], .abortedReady) := Machine.exists_of_run rfl
  refine ⟨s, hs, hq, (executor_invariant ⟨_, hs⟩).2.1.1 2 ?_⟩
  rw [(Prod.mk.inj hq).1]
  decide

end SimCx

end Refault
