import Refault.Step

/-!
# Refault.Panics — which assertions of the runtime about itself can fail

A step that fails at a `Site` fails at one of two, and both depend on how the main loop ended: `rootTwice` and
`destroyQueue`.  The sites of the executor and of the time scheduler are never reached (`step_site`).
-/

namespace Refault

namespace Site

/-- The sites in `run_current_context`, `Task::run`, `remove_task_entry`, `wake_by_ref` and `abort_local`. -/
def inExecutor : Site → Bool
  | .popEntry | .popTask | .popState | .removeEntry | .removeTask | .removeNode | .putBackEntry | .putBackTask
  | .pendingState | .readyState | .senderTaken | .wakeState | .abortState => true
  | .wakeLoop | .rootTwice | .destroyNode | .destroyQueue => false

end Site

namespace SimCx

variable {V Q : Type}

section Errors

variable {s : SimCx V Q} {x : Site}

theorem borrow_bind_site {A : Type} {f : Unit → Except Halt A} (h : (s.borrow >>= f) = .error (.panic (.site x))) :
    s.cell = .free ∧ f () = .error (.panic (.site x)) := by
  unfold borrow at h
  cases hc : s.cell with
  | free => rw [hc] at h; exact ⟨rfl, h⟩
  | borrowed => rw [hc] at h; cases h
  | taken => rw [hc] at h; cases h

theorem call_bind_error {A B : Type} {y : Except Panic B} {f : B → Except Halt A} {p : Panic}
    (h : (call y >>= f) = .error (.panic p)) : y = .error p ∨ ∃ b, y = .ok b ∧ f b = .error (.panic p) := by
  unfold call at h
  cases y with
  | ok b => exact Or.inr ⟨b, rfl, h⟩
  | error p' => cases h; exact Or.inl rfl

theorem spawnTaskOnNode_site {node : NodeId} : s.spawnTaskOnNode node ≠ .error (.panic (.site x)) := by
  intro h
  obtain ⟨-, h⟩ := borrow_bind_site h
  rcases call_bind_error h with h | ⟨⟨id, e⟩, -, h⟩
  · rcases Exec.spawn_error h with h | h | h <;> cases h
  · cases h

theorem stopNode_site {node : NodeId} {isFinal : Bool} {order : List Id} :
    s.stopNode node isFinal order ≠ .error (.panic (.site x)) := by
  intro h
  obtain ⟨-, h⟩ := borrow_bind_site h
  split at h
  · cases h
  · split at h
    · split_ifs at h <;> cases h
    all_goals cases h

theorem stopSimulation_site : s.stopSimulation ≠ .error (.panic (.site x)) := by
  intro h
  obtain ⟨-, h⟩ := borrow_bind_site h
  cases h

theorem putBack_site {i : ℕ} {sim : SimTy} {rest : List (Frame V)} :
    s.putBack i sim rest ≠ .error (.panic (.site x)) := by
  intro h
  obtain ⟨-, h⟩ := borrow_bind_site h
  split at h <;> cases h

theorem wakeByRef_site {e : Exec V} {id : Id} (hk : e.state id ≠ .taskEnd) :
    e.wakeByRef id ≠ .error (.site x) := by
  obtain ⟨e', h⟩ := Exec.wakeByRef_ok hk
  rw [h]
  exact fun h => by cases h

theorem abort_site {e : Exec V} {id : Id} (hI : e.Inv) (hk : e.state id ≠ .taskEnd) :
    e.abort id ≠ .error (.site x) := by
  rcases Exec.abort_spec hI hk with ⟨-, h⟩ | ⟨-, -, h⟩ | ⟨-, -, h⟩ <;> rw [h] <;> exact fun h => by cases h

theorem endPoll_site {r : Option V} {caller : NodeId} {rest : List (Frame V)} (hI : s.ex.Inv) :
    s.endPoll r caller rest ≠ .error (.panic (.site x)) := by
  intro h
  obtain ⟨-, h⟩ := borrow_bind_site h
  split at h
  · cases h
  · rename_i t hr
    obtain ⟨id, snd⟩ := t
    obtain rfl : snd = true := (hI.running _ hr).1
    rcases call_bind_error h with h | ⟨⟨o, e⟩, -, h⟩
    · cases r with
      | none => rcases Exec.pollEnd_pending hI hr with ⟨-, hp⟩ | ⟨-, hp⟩ <;> rw [hp] at h <;> cases h
      | some v => rcases Exec.pollEnd_ready hI v hr with ⟨-, hp⟩ | ⟨-, hp⟩ <;> rw [hp] at h <;> cases h
    · cases o <;> cases h

end Errors

variable [KeyedQueue Q Loc Instant]

section Site

variable {s : SimCx V Q} {x : Site}

theorem idle_site {rest : List (Frame V)} : s.idle rest ≠ .error (.panic (.site x)) := by
  intro h
  unfold idle at h
  split at h
  · cases h
  · dsimp only at h
    split at h <;> cases h

theorem runtime_site {order : List Id} (hB : s.Base) (h : s.runtime order = .error (.panic (.site x))) :
    x = .destroyQueue ∧ s.stack = [.destroy] ∧ s.ex.readyQueue ≠ [] ∧ s.ex.finalStopped = false := by
  unfold runtime at h
  split at h
  · rename_i rest hk
    obtain ⟨hc, h⟩ := borrow_bind_site h
    have hshape := hB.shape
    rw [hk, hc] at hshape
    have hr : s.ex.running = none := by simpa using hshape.nested.loop_eq.2
    split_ifs at h
    · exact absurd h idle_site
    · split at h
      · exact absurd h idle_site
      · rename_i id q hq
        rcases call_bind_error h with h | ⟨⟨t, e⟩, -, h⟩
        · rcases Exec.popped_spec hB.exec hq hr with ⟨-, hp⟩ | ⟨st, -, hp⟩ <;> rw [hp] at h <;> cases h
        · cases t <;> cases h
  · rename_i rest hk
    rcases call_bind_error h with h | ⟨⟨w, ts⟩, hw, h⟩
    · rcases TimeScheduler.wakeNext_spec hB.sleep with ⟨hs, -⟩ | ⟨loc, t, w', q, -, -, hw'⟩
      · rw [hs] at h; cases h
      · rw [hw'] at h; cases h
    · rcases TimeScheduler.wakeNext_spec hB.sleep with ⟨hs, -⟩ | ⟨loc, t, w', q, -, hsl, hw'⟩
      · rw [hs] at hw; cases hw; cases h
      · rw [hw'] at hw
        cases hw
        cases w' with
        | task id =>
          rcases call_bind_error h with h | ⟨e, -, h⟩
          · exact absurd h (wakeByRef_site (hB.wakers loc t id hsl))
          · cases h
        | custom n => cases h
  · exact absurd h (endPoll_site hB.exec)
  · rename_i id ids caller rest hk
    obtain ⟨hc, h⟩ := borrow_bind_site h
    have hon : s.ex.state id ≠ .taskEnd := by
      have := hB.frames
      rw [hk] at this
      exact (this.1 id List.mem_cons_self).1
    rcases call_bind_error h with h | ⟨⟨t, e⟩, -, h⟩
    · exact absurd h (abort_site hB.exec hon)
    · cases t <;> cases h
  · obtain ⟨hc, h⟩ := borrow_bind_site h
    cases h
  · obtain ⟨hc, h⟩ := borrow_bind_site h
    split at h <;> cases h
  · obtain ⟨hc, h⟩ := borrow_bind_site h
    split_ifs at h <;> cases h
  · exact absurd h stopNode_site
  · cases h
  · rename_i rest hk
    have hS := hB.shape
    have hF := hB.frames
    rw [hk] at hS hF
    unfold destroy at h
    by_cases hcur : s.currentNode = initNode
    · rw [if_neg (not_not.mpr hcur)] at h
      obtain ⟨hc, h⟩ := borrow_bind_site h
      rw [hc] at hS
      obtain ⟨rfl, -⟩ := hS.nested.destroy_eq
      split_ifs at h with hq
      · exact absurd h stopSimulation_site
      · cases h
        push Not at hq
        exact ⟨rfl, hk, hq.1, by simpa using hq.2⟩
    · obtain ⟨-, -, rfl⟩ := hS.destroy_eq
      exact absurd hF.2 hcur
  · obtain ⟨hc, h⟩ := borrow_bind_site h
    split at h <;> cases h
  · cases h

theorem user_site {op : Op V} (hB : s.Base) (h : s.userOp op = .error (.panic (.site x))) :
    x = .rootTwice ∧ s.ret.isSome ∧ ∃ caller rest, s.stack = .poll caller :: rest ∧ s.ex.polling = s.root := by
  cases op with
  | spawn node =>
    rcases Except.bind_eq_error_iff.mp h with h | ⟨⟨id, s₁⟩, -, h⟩
    · exact absurd h spawnTaskOnNode_site
    · cases h
  | wake id =>
    simp only [userOp] at h
    split_ifs at h with hk
    · rcases call_bind_error h with h | ⟨e, -, h⟩
      · exact absurd h (wakeByRef_site (by simpa [knows] using hk))
      · cases h
    · cases h
  | abort id =>
    simp only [userOp] at h
    split_ifs at h with hk
    · obtain ⟨hc, h⟩ := borrow_bind_site h
      rcases call_bind_error h with h | ⟨⟨t, e⟩, -, h⟩
      · exact absurd h (abort_site hB.exec (by simpa [knows] using hk))
      · cases t <;> cases h
    · cases h
  | stop node order => exact absurd h stopNode_site
  | start node =>
    obtain ⟨hc, h⟩ := borrow_bind_site h
    split at h <;> cases h
  | createNode =>
    obtain ⟨hc, h⟩ := borrow_bind_site h
    rcases call_bind_error h with h | ⟨⟨id, e⟩, -, h⟩
    · unfold Exec.pushNewNode at h
      split_ifs at h
      cases h
    · cases h
  | stopSimulation => exact absurd h stopSimulation_site
  | newId =>
    rcases call_bind_error h with h | ⟨id, -, h⟩
    · simp only [newId] at h
      split_ifs at h
      cases h
    · cases h
  | newSleep loc deadline =>
    simp only [userOp] at h
    split_ifs at h
    cases h
  | pollSleep loc w =>
    have key : s.pollSleep loc w ≠ .error (.panic (.site x)) := by
      intro h'
      unfold pollSleep at h'
      have hpoll : ∀ d st, s.ts.pollState loc d w st ≠ .error (.site x) := by
        intro d st h0
        cases st with
        | init t =>
          simp only [TimeScheduler.pollState] at h0
          split_ifs at h0
        | waiting _ | done _ | taken => cases h0
      split at h'
      · cases h'
      · split at h'
        · obtain ⟨hc, h'⟩ := borrow_bind_site h'
          rcases call_bind_error h' with h' | ⟨ts, -, h'⟩
          · exact hpoll _ _ h'
          · cases h'
        · rcases call_bind_error h' with h' | ⟨ts, -, h'⟩
          · exact hpoll _ _ h'
          · cases h'
    cases w with
    | task id =>
      simp only [userOp] at h
      split_ifs at h with hk
      · exact absurd h key
      · cases h
    | custom n => exact absurd h key
  | dropSleep loc =>
    simp only [userOp] at h
    split_ifs at h
    · cases h
    · obtain ⟨hc, h⟩ := borrow_bind_site h
      cases h
  | addSimulator ty =>
    obtain ⟨hc, h⟩ := borrow_bind_site h
    split_ifs at h <;> cases h
  | withSimulator ty =>
    obtain ⟨hc, h⟩ := borrow_bind_site h
    split at h
    · cases h
    · split at h <;> cases h
  | pollHandle id =>
    simp only [userOp] at h
    split at h
    · cases h
    · split at h <;> cases h
  | done r =>
    simp only [userOp, done] at h
    split at h
    · rcases Except.bind_eq_error_iff.mp h with h | ⟨⟨id, s₁⟩, -, h⟩
      · exact absurd h spawnTaskOnNode_site
      · cases h
    · cases h
    · rename_i caller rest hk
      split at h
      · split_ifs at h with hroot
        · unfold rootReady at h
          split at h
          · rename_i v' hret
            cases h
            exact ⟨rfl, by simp [hret], caller, rest, hk, hroot⟩
          · exact absurd h stopSimulation_site
        · exact absurd h (endPoll_site hB.exec)
      · exact absurd h (endPoll_site hB.exec)
    · cases h
    · exact absurd h putBack_site
    · exact absurd h putBack_site
    · cases h
    · cases h

/-- **Sites**: a step that fails at one fails because the root future has returned before, or because the main loop
left something in the queue. -/
theorem step_site {l : Label V} (hB : s.Base) (h : s.step l = .error (.panic (.site x))) :
    (x = .rootTwice ∧ s.ret.isSome ∧ ∃ caller rest, s.stack = .poll caller :: rest ∧ s.ex.polling = s.root) ∨
    (x = .destroyQueue ∧ s.stack = [.destroy] ∧ s.ex.readyQueue ≠ [] ∧ s.ex.finalStopped = false) := by
  cases l with
  | user op =>
    simp only [step] at h
    split at h
    · cases h
    · split_ifs at h
      · exact Or.inl (user_site hB h)
      · cases h
  | run order => exact Or.inr (runtime_site hB h)

end Site

end SimCx

end Refault
