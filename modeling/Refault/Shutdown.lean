import Refault.StoppedNodes

/-!
# Refault.Shutdown — after `stop_simulation`

Once the simulation is stopping, every node is stopped for good or still to be stopped by a `stop_simulation`
on the stack (`Closing`).  So when the loop has the control again, or the teardown goes on, no task is live.
-/

namespace Refault

namespace Exec

variable {V : Type} {e e' : Exec V}

theorem Quiet.finalStopped (h : Quiet e e') : e'.finalStopped = e.finalStopped := by
  cases h with
  | abortPolled id hs hp => simp
  | _ => rfl

/-- A node that is stopped for good stays so. -/
theorem Act.final (h : Act e e') {n : NodeId} (hn : e.runLevel n = some .finalStopped) :
    e'.runLevel n = some .finalStopped := by
  have hne : ∀ {m : NodeId} {lv : Option NodeRunLevel}, e.runLevel m = lv → lv ≠ some .finalStopped → n ≠ m := by
    rintro m lv h1 h2 rfl
    exact h2 (h1.symm.trans hn)
  cases h with
  | spawn node id hrun hid hlt => exact (runLevel_insertTask n node id).trans hn
  | abortPolled id hs hp => exact (runLevel_abortAt n id).trans hn
  | abort id hs hp => exact (runLevel_abortAt n id).trans hn
  | clear id q st hq hs hr hf => exact (runLevel_unlink n id).trans hn
  | ready id v hr hs => exact (runLevel_unlink n id).trans hn
  | stop node level hrun hl =>
    have := hne hrun (by decide)
    exact (runLevel_setRunLevel n node level).trans (by simp [this, hn])
  | finalize node hrun =>
    rw [runLevel_setRunLevel]
    by_cases h : n = node
    · subst h; simp [hn]
    · simp [h, hn]
  | start node hrun =>
    have := hne hrun (by decide)
    exact (runLevel_setRunLevel n node _).trans (by simp [this, hn])
  | pushNode hf =>
    have hlt := length_of_runLevel hn
    simpa [runLevel, List.getElem?_append_left hlt] using hn
  | _ => exact hn

/-- Once the simulation is stopping it does so for good, and no node is added. -/
theorem Act.closing (h : Act e e') (hf : e.finalStopped = true) :
    e'.finalStopped = true ∧ e'.nodes.length = e.nodes.length := by
  cases h with
  | abortPolled id hs hp | abort id hs hp => simp [hf, dropUnsent]
  | spawn node id hrun hid hlt => exact ⟨hf, List.length_modify ..⟩
  | clear id q st hq hs hr hf' => rw [hf] at hf'; cases hf'
  | ready id v hr hs => exact ⟨hf, length_unlink ..⟩
  | stop node level hrun hl => exact ⟨hf, List.length_modify ..⟩
  | finalize node hrun => exact ⟨hf, List.length_modify ..⟩
  | start node hrun => exact ⟨hf, List.length_modify ..⟩
  | pushNode hf' => rw [hf] at hf'; cases hf'
  | finalStop | rootReady => exact ⟨rfl, rfl⟩
  | _ => exact ⟨hf, rfl⟩

end Exec

namespace SimCx

variable {V Q : Type} [KeyedQueue Q Loc Instant] {b : SimBuilder} {s s' : SimCx V Q} {l : Label V}

theorem Sane.finalStopped (hS : s.Sane) (h : Next s l s') (hf : s.ex.finalStopped = true) :
    s'.ex.finalStopped = true := by
  rcases hS.act h with he | he
  · rw [he]; exact hf
  · exact (he.closing hf).1

theorem Next.finalStopped (h : Next s l s') (hB : s.Base) (hf : s.ex.finalStopped = true) :
    s'.ex.finalStopped = true := hB.sane.finalStopped h hf

/-- A step that begins to stop the simulation. -/
theorem Next.closes (h : Next s l s') (hf : s.ex.finalStopped = false) (hf' : s'.ex.finalStopped = true) :
    .stopAll (List.range s'.ex.nodes.length) ∈ s'.stack := by
  have hno : s'.ex.finalStopped = s.ex.finalStopped → False := fun h0 => by
    rw [h0, hf] at hf'
    cases hf'
  cases h with
  | stopSimulation hu hc => exact List.mem_cons_self
  | rootReady v caller rest id hk hc hr hroot hret => exact List.mem_cons_self
  | destroy order rest hk hc hq => exact List.mem_cons_self
  | exec op e hu hq => exact (hno hq.finalStopped).elim
  | abort id hu hc hl hp => exact (hno (by simp [Exec.dropUnsent])).elim
  | stopDrop order id ids caller rest hk hc hl hp => exact (hno (by simp [Exec.dropUnsent])).elim
  | stopNext order id ids caller rest e hk hc hl =>
    rcases hl with ⟨-, rfl⟩ | ⟨-, -, rfl⟩ <;> exact (hno (by simp)).elim
  | wakeTask order rest loc t id q e hk hp hs he => exact (hno (Exec.wakeByRef_quiet he).finalStopped).elim
  | pollDropped l caller rest id r e hk hc hr hd he ha hr' hf'' => exact (hno hf'').elim
  | _ => exact (hno rfl).elim

/-- The turns of `stop_simulation`'s loop. -/
theorem step_stopAll (h : s.step l = .ok s') {n : NodeId} {nodes : List NodeId} {rest : List (Frame V)}
    (hk : s.stack = .stopAll (n :: nodes) :: rest) :
    s'.ex.runLevel n = some .finalStopped ∧ ∃ top, s'.stack = top ++ .stopAll nodes :: rest := by
  obtain ⟨order, -, h⟩ := step_runtime h hk rfl
  simp only [runtime, hk] at h
  obtain ⟨-, nd, hn, ⟨-, -, -, rfl⟩ | ⟨-, rfl⟩⟩ := stopNode_ok h
  · refine ⟨?_, [_], rfl⟩
    show (s.ex.setRunLevel n .finalStopped).runLevel n = _
    rw [Exec.runLevel_setRunLevel, if_pos rfl, Exec.runLevel]
    simp only at hn
    rw [hn]
    rfl
  · refine ⟨?_, [], rfl⟩
    show (s.ex.setRunLevel n .finalStopped).runLevel n = _
    rw [Exec.runLevel_setRunLevel, if_pos rfl, Exec.runLevel]
    simp only at hn
    rw [hn]
    rfl

/-- When the simulation is stopping, every node is stopped for good or about to be. -/
def Closing (s : SimCx V Q) : Prop :=
  s.ex.finalStopped = true → ∀ n < s.ex.nodes.length,
    s.ex.runLevel n = some .finalStopped ∨ ∃ nodes, .stopAll nodes ∈ s.stack ∧ n ∈ nodes

theorem step_stack_ne (h : s.step l = .ok s') : ∃ f rest, s.stack = f :: rest := by
  cases hk : s.stack with
  | nil => cases l <;> simp only [step, runtime, hk] at h <;> cases h
  | cons f rest => exact ⟨f, rest, rfl⟩

theorem step_closing (hS : s.Sane) (hC : s.Closing) (h : s.step l = .ok s') : s'.Closing := by
  intro hf' n hn
  have hnext := hS.next h
  by_cases hf : s.ex.finalStopped = true
  · have hlen : s'.ex.nodes.length = s.ex.nodes.length := by
      rcases hS.act hnext with he | he
      · rw [he]
      · exact (he.closing hf).2
    rcases hC hf n (hlen ▸ hn) with hfin | ⟨nodes, hm, hn'⟩
    · rcases hS.act hnext with he | he
      · exact Or.inl (he ▸ hfin)
      · exact Or.inl (he.final hfin)
    · obtain ⟨f, rest, hk⟩ := step_stack_ne h
      rw [hk] at hm
      rcases List.mem_cons.mp hm with rfl | hm
      · cases nodes with
        | nil => cases hn'
        | cons m nodes =>
          obtain ⟨h1, top, h2⟩ := step_stopAll h hk
          rcases List.mem_cons.mp hn' with rfl | hn'
          · exact Or.inl h1
          · exact Or.inr ⟨nodes, by rw [h2]; simp, hn'⟩
      · refine Or.inr ⟨nodes, ?_, hn'⟩
        rcases hnext.top hk with ⟨h1, -⟩ | ⟨gs, g, h1, -, -⟩
        · rw [h1]; exact hm
        · rw [h1]; simp [hm]
  · have hf0 : s.ex.finalStopped = false := by simpa using hf
    exact Or.inr ⟨_, hnext.closes hf0 hf', List.mem_range.mpr hn⟩

theorem Reachable.closing (hr : Reachable b s) : s.Closing :=
  Machine.Steps.inv_of (J := SimCx.Base) (fun _ _ _ => step_base)
    (fun _ _ _ hB => step_closing hB.sane) hr (base_install b)
    fun h => by cases h

/-- No call of the runtime is in progress. -/
def Quiescent (s : SimCx V Q) : Prop := ∀ f ∈ s.stack, f.nests = false

/-- **After a stop no task is live**, as soon as the calls in progress have returned. -/
theorem Reachable.stopped_dead (hr : Reachable b s) (hf : s.ex.finalStopped = true) (hq : s.Quiescent) (id : Id) :
    (s.ex.state id).live = false := by
  by_contra hl
  rw [Bool.not_eq_false] at hl
  have hend : s.ex.state id ≠ .taskEnd := fun h => by rw [h] at hl; cases hl
  rcases hr.covered id hl with hrun | ⟨base, top, ids, c, hk, -⟩
  · rcases hr.closing hf _ (hr.base.exec.node_lt id hend) with hfin | ⟨nodes, hm, -⟩
    · rw [hrun] at hfin
      cases hfin
    · exact absurd (hq _ hm) (by simp [Frame.nests])
  · exact absurd (hq (.stopNode ids c) (by rw [hk]; simp)) (by simp [Frame.nests])

theorem Reachable.quiescent_loop (hr : Reachable b s) {rest : List (Frame V)} (hk : s.stack = .loop :: rest) :
    s.Quiescent := by
  have hS := hr.base.shape
  rw [hk] at hS
  obtain ⟨-, -, rfl⟩ := hS.loop_eq
  rintro f hf
  rw [hk] at hf
  obtain rfl : f = .loop := by simpa using hf
  rfl

end SimCx

end Refault
