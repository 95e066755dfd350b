import Refault.StoppedNodes

/-!
# Refault.StopOrder — the order of a stop

`stop_node` aborts the tasks of its node first, each with the drop of its future, and calls the simulators
after that.
-/

namespace Refault

namespace SimCx

variable {V Q : Type} [KeyedQueue Q Loc Instant] {b : SimBuilder} {s s₁ : SimCx V Q} {l : Label V}

/-- In the trace `tr` of a stop of `n` that begins in `s`, what is done to a task of `n` that was live comes
after the stop callback of every simulator that was registered. -/
def CallbacksFirst (s : SimCx V Q) (n : NodeId) (tr : List (Obs V)) : Prop :=
  ∀ id, (s.ex.state id).live = true → s.ex.node id = n → ∀ pre o post, tr = pre ++ o :: post →
    (o = .abort id ∨ ∃ d, o = .drop id d) → ∀ ty, (s.simulatorsByType ty).isSome → .callback ty .stop n ∈ pre

/-- One turn of the loop, on a task that was spawned. -/
theorem abortNext_eq {id : Id} {ids : List Id} {c : NodeId} {base : List (Frame V)}
    (hr : Reachable b s) (hk : s.stack = .stopNode (id :: ids) c :: base) :
    (s.ex.state id).live = false ∧
      s.step (.run []) = .ok { s with ex := s.ex.note (.abort id), stack := .stopNode ids c :: base } ∨
    (s.ex.state id).live = true ∧ ∃ m os, s.step (.run []) = .ok m ∧ m.ex.log = s.ex.log ++ .abort id :: os := by
  have hB := hr.base
  have hs : s.ex.state id ≠ .taskEnd := hB.sane.known _ c base hk id List.mem_cons_self
  have hc : s.cell = .free := by
    have hS := hB.shape
    rw [hk] at hS
    exact (hS.of_nests rfl).1
  have hstep : s.step (.run []) = s.abortNext id ids c base := by simp [step, runtime, hk]
  rw [hstep]
  unfold abortNext borrow call
  rw [hc]
  rcases Exec.abort_spec hB.exec hs with ⟨hl, ha⟩ | ⟨hl, -, ha⟩ | ⟨hl, -, ha⟩
  · refine Or.inl ⟨hl, ?_⟩
    rw [ha]
    rfl
  · refine Or.inr ⟨hl, _, [], by rw [ha]; rfl, by simp⟩
  · refine Or.inr ⟨hl, _, [.drop id false], by rw [ha]; rfl, by simp [Exec.dropUnsent]⟩

/-- With a live task in its list, the loop comes to an abort of a live task, and has called no simulator before. -/
theorem reaches_abort {ids : List Id} (hr : Reachable b s) {c : NodeId} {base : List (Frame V)}
    (hk : s.stack = .stopNode ids c :: base) {id : Id} (hid : id ∈ ids) (hl : (s.ex.state id).live = true) :
    ∃ ls m j os post, Within base s ls ∧ Machine.run step s ls = .ok m ∧ j ∈ ids ∧ (s.ex.state j).live = true ∧
      m.ex.log = s.ex.log ++ (os ++ .abort j :: post) ∧ ∀ ty n, .callback ty .stop n ∉ os := by
  induction ids generalizing s with
  | nil => exact absurd hid List.not_mem_nil
  | cons j ids ih =>
    have hin : s.Inside base := by
      rw [Inside, hk]
      exact Nat.lt_succ_self _
    rcases abortNext_eq hr hk with ⟨hdead, hst⟩ | ⟨hlive, m, post, hst, hlog⟩
    · -- a tombstone: the loop goes on
      have hid' : id ∈ ids := by
        rcases List.mem_cons.mp hid with rfl | h
        · rw [hl] at hdead
          cases hdead
        · exact h
      obtain ⟨ls, m, i, os, post, hw, hrun, hi, hli, hlog, hno⟩ := ih (hr.tail hst) rfl hid' hl
      refine ⟨.run [] :: ls, m, i, .abort j :: os, post, ⟨hin, fun m' hm' => ?_⟩,
        Machine.run_cons.mpr ⟨_, hst, hrun⟩, List.mem_cons_of_mem _ hi, hli, ?_, fun ty n hmem => ?_⟩
      · rw [hst] at hm'
        cases hm'
        exact hw
      · rw [hlog]
        simp
      · rcases List.mem_cons.mp hmem with h | h
        · cases h
        · exact hno ty n h
    · exact ⟨[.run []], m, j, [], post, ⟨hin, fun _ _ => trivial⟩, Machine.run_single.mpr hst,
        List.mem_cons_self, hlive, hlog, fun ty n h => absurd h List.not_mem_nil⟩

/-- **The simulators learn of a stop first only if there is nothing to tell.**  In every reachable state and
for every stop of a running node, final or not, the traces of the stop have the callbacks before the aborts
and drops of the node's tasks if and only if no simulator is registered or the node has no live task. -/
theorem callbacks_first_iff (hr : Reachable b s) {n : NodeId} (hs : s.Stops l n) (h : s.step l = .ok s₁)
    {f : Frame V} {base : List (Frame V)} (hk : s₁.stack = f :: base) :
    (∀ ls m tr, Within base s₁ ls → Machine.run step s₁ ls = .ok m → m.ex.log = s.ex.log ++ tr →
      s.CallbacksFirst n tr) ↔
      (∀ ty, s.simulatorsByType ty = none) ∨ ∀ id, (s.ex.state id).live = true → s.ex.node id ≠ n := by
  obtain ⟨nd, order, level, base', hnd, ho, -, hex, -, hk'⟩ := hs.spec h
  obtain ⟨rfl, rfl⟩ := List.cons.inj (hk'.symm.trans hk)
  constructor
  · intro hfirst
    by_contra hno
    rw [not_or] at hno
    obtain ⟨hsim, hlive⟩ := hno
    push Not at hsim hlive
    obtain ⟨ty, hty⟩ := hsim
    obtain ⟨id, hl, hn⟩ := hlive
    have hI := hr.base.exec
    -- the stop has found the task
    have hord : ∀ j, (s.ex.state j).live = true → s.ex.node j = n → j ∈ order := by
      intro j hlj hnj
      have hent : (s.ex.tasks j).isSome := by rw [hI.tasks_of_live hlj]; rfl
      have hmem : j ∈ nd.tasks := (hI.node_tasks n nd hnd j).mpr ⟨hent, hnj⟩
      rw [← ho] at hmem
      exact List.mem_toFinset.mp hmem
    have hstate : ∀ j, s₁.ex.state j = s.ex.state j := by
      intro j
      rw [hex]
      rfl
    obtain ⟨ls, m, j, os, post, hw, hrun, hj, hlj, hlog, hcb⟩ :=
      reaches_abort (hr.tail h) hk (hord id hl hn) (by rw [hstate]; exact hl)
    have hnj : s.ex.node j = n := by
      have hmem : j ∈ nd.tasks := by rw [← ho]; exact List.mem_toFinset.mpr hj
      exact ((hI.node_tasks n nd hnd j).mp hmem).2
    have htrace : m.ex.log = s.ex.log ++ (.stop n :: os ++ .abort j :: post) := by
      rw [hlog, hex]
      simp [Exec.setRunLevel]
    have hmem := hfirst ls m _ hw hrun htrace j (by rw [← hstate]; exact hlj) hnj (.stop n :: os)
        (.abort j) post rfl
      (Or.inl rfl) ty (Option.isSome_iff_ne_none.mpr hty)
    rcases List.mem_cons.mp hmem with h0 | h0
    · cases h0
    · exact hcb ty n h0
  · rintro hor ls m tr - - - id hl hn pre o post - - ty hty
    rcases hor with h0 | h0
    · rw [h0 ty] at hty
      cases hty
    · exact absurd hn (h0 id hl)

/-- Without simulators every trace of the stop of node 1 is right. -/
theorem callbacks_first_iff_no_simulator : ∃ s s₁ :
    ArraySim, Machine.run step (install epoch) stopOtherRun = .ok s ∧
    s.step (.user (.stop 1 [2])) = .ok s₁ ∧ (s.ex.state 2).live = true ∧
    ∀ ls m tr, Within [.poll 0, .loop] s₁ ls → Machine.run step s₁ ls = .ok m → m.ex.log = s.ex.log ++ tr →
      s.CallbacksFirst 1 tr := by
  obtain ⟨s₁, hs₁, hk⟩ : ∃ s₁ : ArraySim,
      Machine.run step (install epoch) (stopOtherRun ++ [.user (.stop 1 [2])]) = .ok s₁ ∧
      s₁.stack = [.stopNode [2] 0, .poll 0, .loop] :=
    Machine.exists_of_run rfl
  obtain ⟨s, hs, hst⟩ := Machine.run_append.mp hs₁
  obtain ⟨s', hs', hq⟩ : ∃ s : ArraySim, Machine.run step (install epoch) stopOtherRun = .ok s ∧
      (s.ex.runLevel 1, s.ex.state 2, s.simulatorsByType) = (some .running, .ready, fun _ => none) :=
    Machine.exists_of_run rfl
  obtain rfl : s = s' := Except.ok.inj (hs.symm.trans hs')
  simp only [Prod.mk.injEq] at hq
  obtain ⟨hrun, hready, hsim⟩ := hq
  have hstep := Machine.run_single.mp hst
  refine ⟨s, s₁, hs, hstep, by rw [hready]; rfl, ?_⟩
  exact (callbacks_first_iff ⟨_, hs⟩ (.user 1 [2] hrun) hstep hk).mpr (Or.inl fun ty => by rw [hsim])

/-- The root task adds a simulator, creates a node and spawns a task there. -/
def watchedRun : List (Label ℕ) :=
  [.user (.done none), .run [], .user (.addSimulator 0), .user .createNode, .run [], .user (.done none), .run [],
    .user (.spawn 1)]

/-- The stop of the node drops the task's future, and the simulator has not been called. -/
theorem stop_aborts_first : ∃ s s₁ m : ArraySim, Machine.run step (install epoch) watchedRun = .ok s ∧
    s.Stops (.user (.stop 1 [2])) 1 ∧ s.step (.user (.stop 1 [2])) = .ok s₁ ∧ s₁.step (.run []) = .ok m ∧
    m.ex.log = s.ex.log ++ [.stop 1, .abort 2, .drop 2 false] ∧
    ¬ s.CallbacksFirst 1 [.stop 1, .abort 2, .drop 2 false] := by
  obtain ⟨m, hm, hlog⟩ : ∃ m : ArraySim,
      Machine.run step (install epoch) (watchedRun ++ [.user (.stop 1 [2]), .run []]) = .ok m ∧
      m.ex.log = [.spawn 1 0, .wake 1, .poll 1, .callback 0 .create 1, .spawn 2 1, .wake 2, .stop 1, .abort 2,
        .drop 2 false] :=
    Machine.exists_of_run rfl
  obtain ⟨s, hs, hst⟩ := Machine.run_append.mp hm
  obtain ⟨s₁, h₁, h₂⟩ := Machine.run_cons.mp hst
  obtain ⟨s', hs', hq⟩ : ∃ s : ArraySim, Machine.run step (install epoch) watchedRun = .ok s ∧
      (s.ex.runLevel 1, s.ex.state 2, s.ex.node 2, s.simulatorsByType 0, s.ex.log) =
        (some .running, .ready, 1, some 0,
          [.spawn 1 0, .wake 1, .poll 1, .callback 0 .create 1, .spawn 2 1, .wake 2]) :=
    Machine.exists_of_run rfl
  obtain rfl : s = s' := Except.ok.inj (hs.symm.trans hs')
  simp only [Prod.mk.injEq] at hq
  obtain ⟨hrun, hready, hnode, hsim, hlog₀⟩ := hq
  refine ⟨s, s₁, m, hs, .user 1 [2] hrun, h₁, Machine.run_single.mp h₂, by rw [hlog, hlog₀]; rfl, fun hfirst => ?_⟩
  have hmem := hfirst 2 (by rw [hready]; rfl) hnode [.stop 1] (.abort 2) [.drop 2 false] rfl (Or.inl rfl) 0
    (by rw [hsim]; rfl)
  simp at hmem

end SimCx

end Refault
