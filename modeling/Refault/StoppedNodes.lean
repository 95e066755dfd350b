import Refault.Scopes
import Refault.AbortJoin

/-!
# Refault.StoppedNodes — stopped nodes do not run

A live task is on a running node or still to be aborted by a `stop_node` on the stack (`Covered`); when a poll
begins the stack is empty down to the loop, so the node runs.  The tasks a stop found are followed through the
stop's own frame, to the abort that makes them dead for good.
-/

namespace Refault

namespace Exec

variable {V : Type} {e e' : Exec V}

theorem runLevel_modify (n m : NodeId) (f : NodeData → NodeData) (hf : ∀ nd, (f nd).runLevel = nd.runLevel)
    (nodes : List NodeData) : ((nodes.modify m f)[n]?).map (·.runLevel) = (nodes[n]?).map (·.runLevel) := by
  rw [List.getElem?_modify]
  cases nodes[n]? with
  | none => simp
  | some nd => by_cases h : m = n <;> simp [h, hf]

@[simp] theorem runLevel_insertTask (n m : NodeId) (id : Id) : (e.insertTask m id).runLevel n = e.runLevel n :=
  runLevel_modify n m (fun nd => { nd with tasks := insert id nd.tasks }) (fun _ => rfl) e.nodes

@[simp] theorem runLevel_unlink (n : NodeId) (id : Id) : (e.unlink id).runLevel n = e.runLevel n :=
  runLevel_modify n (e.node id) (fun nd => { nd with tasks := nd.tasks.erase id }) (fun _ => rfl) e.nodes

@[simp] theorem runLevel_abortAt (n : NodeId) (id : Id) : (e.abortAt id).runLevel n = e.runLevel n := by
  simp [runLevel]

@[simp] theorem runLevel_setRunLevel (n m : NodeId) (level : NodeRunLevel) :
    (e.setRunLevel m level).runLevel n = if n = m then (e.runLevel m).map (fun _ => level) else e.runLevel n := by
  unfold runLevel setRunLevel
  rw [List.getElem?_modify]
  by_cases h : n = m
  · subst h; cases e.nodes[n]? <;> simp
  · cases e.nodes[n]? <;> simp [h, Ne.symm h]

theorem Quiet.runLevel (h : Quiet e e') (n : NodeId) : e'.runLevel n = e.runLevel n := by
  cases h with
  | abortPolled id hs hp => exact runLevel_abortAt ..
  | _ => rfl

/-- The end of a poll changes no run level. -/
theorem Act.runLevel_pollEnd (h : Act e e') (hr : e.running ≠ none) (hr' : e'.running = none) (n : NodeId) :
    e'.runLevel n = e.runLevel n := by
  cases h with
  | poll j q hq hs hr0 hf => exact absurd hr0 hr
  | abortPolled j hs hp => exact absurd (by simpa using hr') hr
  | abort j hs hp => exact absurd (by simpa [dropUnsent] using hr') hr
  | ready j v hr0 hs => exact runLevel_unlink n j
  | pending | pendingAborted | readyQueued => rfl
  | _ => exact absurd hr' hr

/-- A live task was live before, or has just been spawned on a running node. -/
theorem Act.live_of (h : Act e e') {id : Id} (hl : (e'.state id).live = true) :
    (e.state id).live = true ∧ e'.node id = e.node id ∨ e'.runLevel (e'.node id) = some .running := by
  cases h with
  | spawn node j hrun hid hlt =>
    by_cases hj : id = j
    · subst hj
      refine Or.inr ?_
      simpa [runLevel, node_insertTask] using (runLevel_insertTask (e := e) node node id).trans hrun
    · exact Or.inl ⟨by simpa [hj, state_insertTask] using hl, by simp [node_insertTask, hj]⟩
  | wake j hs =>
    refine Or.inl ⟨?_, by simp⟩
    by_cases hj : id = j
    · subst hj; rw [hs]; rfl
    · simpa [hj] using hl
  | abortPolled j hs hp | abort j hs hp =>
    by_cases hj : id = j
    · simp [hj, dropUnsent, TaskState.live] at hl
    · exact Or.inl ⟨by simpa [hj, dropUnsent] using hl, by simp [dropUnsent]⟩
  | poll j q hq hs hr hf =>
    refine Or.inl ⟨?_, by simp [takeHead]⟩
    by_cases hj : id = j
    · subst hj; rw [hs]; rfl
    · simpa [hj, takeHead] using hl
  | clear j q st hq hs hr hf =>
    refine Or.inl ⟨?_, by simp [clearHead]⟩
    by_cases hj : id = j
    · subst hj
      rcases hs with ⟨-, rfl⟩ | ⟨-, rfl⟩ <;> simp [clearHead, TaskState.live] at hl
    · simpa [hj, clearHead] using hl
  | pending j hr hs => exact Or.inl ⟨by simpa using hl, by simp⟩
  | pendingAborted j hr hs => exact Or.inl ⟨by simpa [dropUnsent] using hl, by simp [dropUnsent]⟩
  | ready j v hr hs | readyQueued j v hr hs =>
    by_cases hj : id = j
    · simp [hj, TaskState.live] at hl
    · exact Or.inl ⟨by simpa [hj, sent] using hl, by simp [sent]⟩
  | _ => exact Or.inl ⟨hl, rfl⟩

/-- A task that is being polled was so before, or its poll begins. -/
theorem Act.polling_of (h : Act e e') {id : Id} (hp : e'.polling = some id) :
    e.polling = some id ∨ Refault.polls id e'.log = Refault.polls id e.log + 1 := by
  cases h with
  | poll j q hq hs hr hf =>
    obtain rfl : j = id := by simpa [polling, takeHead] using hp
    exact Or.inr (by simp [takeHead, Refault.polls])
  | abortPolled j hs hp' => exact Or.inl (by simpa [polling] using hp)
  | abort j hs hp' => exact Or.inl (by simpa [polling, dropUnsent] using hp)
  | pendingAborted j hr hs => simp [polling, dropUnsent] at hp
  | pending j hr hs | ready j v hr hs | readyQueued j v hr hs => simp [polling] at hp
  | _ => exact Or.inl hp

end Exec

namespace SimCx

variable {V Q : Type} [KeyedQueue Q Loc Instant] {b : SimBuilder} {s s' : SimCx V Q} {l : Label V}

/-- A node stays running, or `stop_node` is about to abort its tasks. -/
theorem Next.runLevel (h : Next s l s') {n : NodeId} (hrun : s.ex.runLevel n = some .running) :
    s'.ex.runLevel n = some .running ∨
    s.Stops l n ∧ ∃ nd order c rest, s.ex.nodes[n]? = some nd ∧ order.toFinset = nd.tasks ∧
    s'.stack = .stopNode order c :: rest := by
  have hset : ∀ {m : NodeId} {nd : NodeData} {e : Exec V}, s.ex.nodes[m]? = some nd → nd.runLevel ≠ .running →
      e = s.ex.setRunLevel m .finalStopped → e.runLevel n = some .running := by
    rintro m nd e hm hne rfl
    have hnm : n ≠ m := by
      rintro rfl
      simp [Exec.runLevel, hm, hne] at hrun
    simp [hnm, hrun]
  cases h with
  | exec op e hu hq => exact Or.inl ((hq.runLevel n).trans hrun)
  | spawn node id hu hc hrun' hid hlt => exact Or.inl ((Exec.runLevel_insertTask n node id).trans hrun)
  | doneInit r rest id hk hc hrun' hid hlt => exact Or.inl ((Exec.runLevel_insertTask n _ id).trans hrun)
  | abort id hu hc hl hp => exact Or.inl ((Exec.runLevel_abortAt n id).trans hrun)
  | stopDrop order id ids caller rest hk hc hl hp => exact Or.inl ((Exec.runLevel_abortAt n id).trans hrun)
  | stopNext order id ids caller rest e hk hc hl =>
    rcases hl with ⟨-, rfl⟩ | ⟨-, -, rfl⟩
    · exact Or.inl hrun
    · exact Or.inl ((Exec.runLevel_abortAt n id).trans hrun)
  | clear order rest id q st hk hc hf hq hs => exact Or.inl ((Exec.runLevel_unlink n id).trans hrun)
  | wakeTask order rest loc t id q e hk hp hs he =>
    exact Or.inl (((Exec.wakeByRef_quiet he).runLevel n).trans hrun)
  | pollDropped l caller rest id r e hk hc hr hd he ha hr' hf =>
    exact Or.inl ((ha.runLevel_pollEnd (by rw [hr]; exact Option.some_ne_none _) hr' n).trans hrun)
  | start node hu hc hrun' =>
    refine Or.inl ?_
    by_cases hn : n = node
    · subst hn; rw [hrun] at hrun'; cases hrun'
    · simp [hn, hrun]
  | createNode hu hc hf =>
    refine Or.inl ?_
    have hlt := Exec.length_of_runLevel hrun
    simpa [Exec.runLevel, List.getElem?_append_left hlt] using hrun
  | stop node order nd hu hc hn hrun' hnd ho =>
    by_cases hne : n = node
    · subst hne; exact Or.inr ⟨.user n order hrun, nd, order, _, _, hn, ho, rfl⟩
    · exact Or.inl (by simpa [Exec.runLevel, Exec.setRunLevel, Ne.symm hne] using hrun)
  | stopAllRun order node nodes rest nd hk hc hn hrun' hnd ho =>
    by_cases hne : n = node
    · subst hne; exact Or.inr ⟨.final n nodes rest order hk hrun, nd, order, _, _, hn, ho, rfl⟩
    · exact Or.inl (by simpa [Exec.runLevel, Exec.setRunLevel, Ne.symm hne] using hrun)
  | stopAllSkip order node nodes rest nd hk hc hn hrun' => exact Or.inl (hset hn hrun' rfl)
  | _ => exact Or.inl hrun

/-- A step of the runtime. -/
theorem step_runtime (h : s.step l = .ok s') {f : Frame V} {rest : List (Frame V)} (hk : s.stack = f :: rest)
    (hf : f.isUser = false) : ∃ order, l = .run order ∧ s.runtime order = .ok s' := by
  cases l with
  | user op =>
    simp only [step, hk, hf, Bool.false_eq_true, if_false] at h
    cases h
  | run order => exact ⟨order, rfl, h⟩

/-- The turns of `stop_node`'s loop. -/
theorem step_stopNode (hS : s.Sane) (h : s.step l = .ok s') {id : Id} {ids : List Id} {c : NodeId}
    {rest : List (Frame V)} (hk : s.stack = .stopNode (id :: ids) c :: rest) :
    s'.ex.Dead id ∧ (∃ top, s'.stack = top ++ .stopNode ids c :: rest) ∧
      (s'.ex.log = s.ex.log ++ [.abort id] ∨ s'.ex.log = s.ex.log ++ [.abort id, .drop id false]) := by
  obtain ⟨order, -, h⟩ := step_runtime h hk rfl
  simp only [runtime, hk] at h
  obtain ⟨-, h⟩ := borrow_bind.mp h
  obtain ⟨⟨t, e⟩, he, h⟩ := call_bind.mp h
  have hs : s.ex.state id ≠ .taskEnd := hS.known _ c rest hk id List.mem_cons_self
  rcases Exec.abort_spec hS.exec hs with ⟨hl, ha⟩ | ⟨-, -, ha⟩ | ⟨-, -, ha⟩ <;> rw [ha] at he <;> cases he <;>
    cases h
  · exact ⟨⟨hs, hl⟩, ⟨[], rfl⟩, Or.inl rfl⟩
  · exact ⟨by simp [Exec.Dead, TaskState.live], ⟨[], rfl⟩, Or.inl (by simp)⟩
  · exact ⟨by simp [Exec.Dead, Exec.dropUnsent, TaskState.live], ⟨[_], rfl⟩, Or.inr (by simp [Exec.dropUnsent])⟩

theorem step_stopNode_nil (h : s.step l = .ok s') {c : NodeId} {rest : List (Frame V)}
    (hk : s.stack = .stopNode [] c :: rest) : s'.ex = s.ex := by
  obtain ⟨order, -, h⟩ := step_runtime h hk rfl
  simp only [runtime, hk] at h
  obtain ⟨-, h⟩ := borrow_bind.mp h
  cases h
  rfl

/-- `id` is still to be aborted by the `stop_node` above `base`. -/
def Pending (base : List (Frame V)) (id : Id) (s : SimCx V Q) : Prop :=
  ∃ top ids c, s.stack = top ++ .stopNode ids c :: base ∧ id ∈ ids

/-- A pending task stays pending, until its abort makes it dead. -/
theorem Pending.step {base : List (Frame V)} {id : Id} (hp : s.Pending base id) (hS : s.Sane)
    (h : s.step l = .ok s') : s'.Pending base id ∨ s'.ex.Dead id := by
  obtain ⟨top, ids, c, hk, hid⟩ := hp
  cases top with
  | nil =>
    cases ids with
    | nil => cases hid
    | cons j ids =>
      obtain ⟨hd, ⟨top, hk'⟩, -⟩ := step_stopNode hS h hk
      rcases List.mem_cons.mp hid with rfl | hid
      · exact Or.inr hd
      · exact Or.inl ⟨top, ids, c, hk', hid⟩
  | cons t top =>
    rcases (hS.next h).top hk with ⟨h1, -⟩ | ⟨gs, g, h1, -, -⟩
    · exact Or.inl ⟨top, ids, c, h1, hid⟩
    · exact Or.inl ⟨gs ++ g :: top, ids, c, by simp [h1], hid⟩

/-- `id` is a task of a running node, or there is a stop that has yet to abort it. -/
def Cover (s : SimCx V Q) (id : Id) : Prop :=
  s.ex.runLevel (s.ex.node id) = some .running ∨ ∃ base, s.Pending base id

theorem Cover.step {id : Id} (hC : (s.ex.state id).live = true → s.Cover id) (hS : s.Sane) (h : s.step l = .ok s')
    (hl : (s'.ex.state id).live = true) : s'.Cover id := by
  have hn := hS.next h
  have key : (s.ex.state id).live = true ∧ s'.ex.node id = s.ex.node id ∨
      s'.ex.runLevel (s'.ex.node id) = some .running := by
    rcases hS.act hn with he | he
    · rw [he] at hl ⊢
      exact Or.inl ⟨hl, rfl⟩
    · exact he.live_of hl
  rcases key with ⟨hl', hnode⟩ | hrun
  · rcases hC hl' with hrun | ⟨base, hp⟩
    · rcases hn.runLevel hrun with h0 | ⟨-, nd, order, c, rest, hnd, ho, hk⟩
      · exact Or.inl (hnode ▸ h0)
      · refine Or.inr ⟨rest, [], order, c, hk, ?_⟩
        have hmem := (hS.exec.node_tasks _ nd hnd id).mpr ⟨hS.exec.hasEntry_of_live hl', rfl⟩
        rw [← ho] at hmem
        exact List.mem_toFinset.mp hmem
    · rcases hp.step hS h with h0 | h0
      · exact Or.inr ⟨base, h0⟩
      · rw [h0.2] at hl
        cases hl
  · exact Or.inl hrun

/-- A live task is on a running node, or there is a stop that has yet to abort it. -/
def Covered (s : SimCx V Q) : Prop := ∀ id, (s.ex.state id).live = true → s.Cover id

theorem Reachable.covered (hr : Reachable b s) : s.Covered :=
  Machine.Steps.inv_of (J := SimCx.Base) (fun _ _ _ => step_base)
    (fun _ _ _ hB hC h id => Cover.step (hC id) hB.sane h) hr (base_install b)
    fun id h => by cases h

/-- While a stop has tasks to abort no poll begins. -/
theorem Pending.polls {base : List (Frame V)} {id : Id} (hp : s.Pending base id) (hB : s.Base)
    (h : s.step l = .ok s') (j : Id) : polls j s'.ex.log = polls j s.ex.log := by
  by_contra hne
  obtain ⟨⟨⟨rest, hk⟩, -⟩, -⟩ := (step_next hB h).poll_frame hB hne
  obtain ⟨top, ids, c, hk', -⟩ := hp
  have hS := hB.shape
  rw [hk] at hS
  obtain ⟨-, -, rfl⟩ := hS.loop_eq
  rw [hk] at hk'
  have hm : Frame.stopNode ids c ∈ [(.loop : Frame V)] := by rw [hk']; simp
  simp at hm

/-- What a stop found: the task is pending or dead, it is not polled again, and if it is being polled, it was
so then. -/
structure Found (s₀ : SimCx V Q) (base : List (Frame V)) (id : Id) (m : SimCx V Q) : Prop where
  pending : m.Pending base id ∨ m.ex.Dead id
  polls : polls id m.ex.log = polls id s₀.ex.log
  polling : m.ex.polling = some id → s₀.ex.polling = some id

theorem Found.step {s₀ m m' : SimCx V Q} {base : List (Frame V)} {id : Id} (hf : Found s₀ base id m) (hB : m.Base)
    (h : m.step l = .ok m') : Found s₀ base id m' := by
  have hact := (step_next hB h).act hB
  have hpolls : Refault.polls id m'.ex.log = Refault.polls id m.ex.log := by
    rcases hf.pending with hp | hd
    · exact hp.polls hB h id
    · exact (hB.dead (Machine.Steps.single h) hd).2
  refine ⟨?_, hpolls.trans hf.polls, fun hp => hf.polling ?_⟩
  · rcases hf.pending with hp | hd
    · exact hp.step hB.sane h
    · exact Or.inr (hB.dead (Machine.Steps.single h) hd).1
  · rcases hact with he | he
    · rw [← he]; exact hp
    · rcases he.polling_of hp with h0 | h0
      · exact h0
      · rw [hpolls] at h0
        exact absurd h0 (Nat.lt_succ_self _).ne

/-- A stop finds every task of its node. -/
theorem Stops.found {n : NodeId} (hs : s.Stops l n) (hB : s.Base) (h : s.step l = .ok s') {f : Frame V}
    {base : List (Frame V)} (hk : s'.stack = f :: base) {id : Id} (hend : s.ex.state id ≠ .taskEnd)
    (hnode : s.ex.node id = n) : Found s base id s' := by
  obtain ⟨nd, order, level, base', hnd, ho, -, he, -, hk'⟩ := hs.spec h
  rw [hk] at hk'
  cases hk'
  refine ⟨?_, by rw [he]; simp [Refault.polls, Exec.setRunLevel], fun hp => by rw [he] at hp; exact hp⟩
  by_cases hl : (s.ex.state id).live = true
  · refine Or.inl ⟨[], order, _, hk, ?_⟩
    have hmem := (hB.exec.node_tasks n nd hnd id).mpr ⟨hB.exec.hasEntry_of_live hl, hnode⟩
    rw [← ho] at hmem
    exact List.mem_toFinset.mp hmem
  · have hl' : (s.ex.state id).live = false := by simpa using hl
    exact Or.inr (by rw [he]; exact ⟨hend, hl'⟩)

theorem Found.run {s₀ m : SimCx V Q} {base : List (Frame V)} {id : Id} (hf : Found s₀ base id s) (hB : s.Base)
    (h : Machine.Steps SimCx.step s m) : Found s₀ base id m :=
  h.inv_of (J := SimCx.Base) (fun _ _ _ => step_base) (fun _ _ _ hB hf => hf.step hB) hB hf

/-- The ids of a frame of `stop_node` are on the node it runs on. -/
theorem Base.stopNode_on (hB : s.Base) {top base : List (Frame V)} {ids : List Id} {c : NodeId}
    (hk : s.stack = top ++ .stopNode ids c :: base) : ∀ id ∈ ids, s.ex.node id = nodeUnder s.currentNode top := by
  have hF := hB.frames
  rw [hk] at hF
  exact fun id hid => (hF.fits id hid).2

/-- **Stopped nodes do not run.**  When a poll begins, the node of its task is running.  A task that is on a
node when a stop of it takes effect is not polled again, and its future is dropped at most once, and exactly
once by the time the stop has returned, unless the stop was made in its own poll: then it is dropped at the
end of that poll.  The stop itself aborts tasks of its node only. -/
theorem stopped_nodes_do_not_run (hr : Reachable b s) :
    (∀ l s' id, s.step l = .ok s' → polls id s'.ex.log ≠ polls id s.ex.log →
      s'.ex.runLevel (s'.ex.node id) = some .running) ∧
    ∀ l n s' f base, s.Stops l n → s.step l = .ok s' → s'.stack = f :: base →
      (∀ id, s.ex.state id ≠ .taskEnd → s.ex.node id = n → ∀ m, Machine.Steps step s' m →
        polls id m.ex.log = polls id s.ex.log ∧ (drops id m.ex.log).length ≤ 1 ∧
        (¬ m.Inside base → (drops id m.ex.log).length = 1 ∨ s.ex.polling = some id ∧ m.ex.polling = some id ∧
          ∀ l m', m.step l = .ok m' → m'.ex.polling ≠ some id →
            ∃ r, m'.ex.log = m.ex.log ++ [.ret id r, .drop id true])) ∧
      ∀ ls m ids c l m' id, Within base s' ls → Machine.run step s' ls = .ok m →
      m.stack = .stopNode ids c :: base →
        m.step l = .ok m' → (∃ os, m'.ex.log = m.ex.log ++ os ∧ .abort id ∈ os) → m.ex.node id = n := by
  have hB := hr.base
  refine ⟨fun l s' id h hne => ?_, fun l n s' f base hs h hk => ⟨fun id hend hnode m hm => ?_, ?_⟩⟩
  · have hn := step_next hB h
    obtain ⟨⟨⟨rest, hk⟩, hst⟩, ⟨caller, rest', hk'⟩, -⟩ := hn.poll_frame hB hne
    -- nothing is pending under the loop
    have hrun : s.ex.runLevel (s.ex.node id) = some .running := by
      rcases hr.covered id (by rw [hst]; rfl) with h0 | ⟨base, hp⟩
      · exact h0
      · exact absurd (hp.polls hB h id) hne
    rw [(hn.on hB ⟨by rw [hst]; decide, rfl⟩).2]
    rcases hn.runLevel hrun with h0 | ⟨-, nd, order, c, rest, -, -, hk''⟩
    · exact h0
    · rw [hk'] at hk''
      cases hk''
  · have hf := (hs.found hB h hk hend hnode).run (step_base hB h) hm
    have hrm : Reachable b m := (hr.tail h).trans hm
    have hA := hrm.accounts id
    refine ⟨hf.polls, hA.drops_le, fun hin => ?_⟩
    rcases hf.pending with ⟨top, ids, c, hkm, -⟩ | hd
    · exact absurd (by rw [Inside, hkm]; simp; omega) hin
    · by_cases hp : m.ex.polling = some id
      · refine Or.inr ⟨hf.polling hp, hp, fun l m' hm' hne => ?_⟩
        rcases (step_next hrm.base hm').act hrm.base with he | he
        · rw [he] at hne
          exact absurd hp hne
        · rcases he.pollEnd hp with h0 | h0
          · exact absurd h0 hne
          · cases h0 with
            | ready v hl hc hd' => exact ⟨_, hl⟩
            | aborted hst hl hc hd' => exact ⟨_, hl⟩
            | pending hst hl ht =>
              rw [hd.2] at hst
              cases hst
      · have ho : ¬ m.ex.Open id := by
          rintro (h0 | h0 | h0)
          · exact hd.1 h0
          · rw [hd.2] at h0; cases h0
          · exact hp h0
        obtain ⟨r, b, h1, -⟩ := hA.closed ho
        exact Or.inl (by rw [h1]; rfl)
  · rintro ls m ids c l m' id hw hrun hkm hst ⟨os, hlog, hos⟩
    have hB' := step_base hB h
    obtain ⟨-, order, -, base', -, -, -, -, hcur, hk'⟩ := hs.spec h
    have hBm : m.Base := Machine.Steps.inv (fun _ _ _ => step_base) ⟨ls, hrun⟩ hB'
    have hcur' : m.currentNode = n := by
      rcases hw.callee hB' hk hrun with ⟨h1, -⟩ | ⟨top, g, ⟨h1, h2⟩, -⟩
      · rw [h1] at hkm
        exact absurd (congrArg List.length hkm) (by simp)
      · rw [hkm] at h1
        have htop : top = [] := by
          have := congrArg List.length h1
          simp at this
          exact this
        subst htop
        rw [← hcur, ← h2]
        rfl
    cases ids with
    | nil =>
      rw [step_stopNode_nil hst hkm] at hlog
      have : os = [] := by simpa using hlog
      rw [this] at hos
      cases hos
    | cons j ids =>
      obtain ⟨-, -, hlog'⟩ := step_stopNode hBm.sane hst hkm
      have hid : id = j := by
        rcases hlog' with h0 | h0 <;> rw [h0] at hlog <;> obtain rfl := List.append_cancel_left hlog <;>
          simpa using hos
      subst hid
      rw [hBm.stopNode_on (show m.stack = [] ++ _ from hkm) id List.mem_cons_self]
      exact hcur'

/-- The root task spawns a task on a new node and stops that node. -/
def stopOtherRun : List (Label ℕ) :=
  [.user (.done none), .run [], .user .createNode, .run [], .user (.spawn 1)]

/-- After the stop the task's future is gone. -/
theorem stopped_nodes_do_not_run_other : ∃ s s' m :
    ArraySim, Machine.run step (install epoch) stopOtherRun = .ok s ∧
    s.step (.user (.stop 1 [2])) = .ok s' ∧
    Machine.run step s' [.run [], .user (.done none), .run [], .run []] = .ok m ∧
    (drops 2 m.ex.log).length = 1 := by
  obtain ⟨s, hs, hq⟩ : ∃ s : ArraySim, Machine.run step (install epoch) stopOtherRun = .ok s ∧
      ((s.ex.runLevel 1, s.ex.state 2, s.ex.node 2, s.ex.polling),
        (s.step (.user (.stop 1 [2]))).map (·.stack)) =
      ((some .running, .ready, 1, some 1), .ok [.stopNode [2] 0, .poll 0, .loop]) :=
    Machine.exists_of_run rfl
  obtain ⟨m, hm, hq'⟩ : ∃ m : ArraySim, Machine.run step (install epoch)
      (stopOtherRun ++ [.user (.stop 1 [2])] ++ [.run [], .user (.done none), .run [], .run []]) = .ok m ∧
      (m.stack, m.ex.polling) = ([.poll 0, .loop], some 1) := Machine.exists_of_run rfl
  obtain ⟨s', h1, h2⟩ := Machine.run_append.mp hm
  obtain ⟨s₀, h0, h3⟩ := Machine.run_append.mp h1
  obtain rfl : s₀ = s := Except.ok.inj (h0.symm.trans hs)
  have hst := Machine.run_single.mp h3
  simp only [Prod.mk.injEq, hst] at hq hq'
  obtain ⟨⟨hrun, hstate, hnode, hpoll⟩, hk⟩ := hq
  replace hk : s'.stack = [.stopNode [2] 0, .poll 0, .loop] := Except.ok.inj hk
  refine ⟨s₀, s', m, hs, hst, h2, ?_⟩
  have hfound := ((stopped_nodes_do_not_run ⟨_, hs⟩).2 _ 1 s' _ _ (.user 1 [2] hrun) hst hk).1 2
    (by rw [hstate]; decide) hnode m ⟨_, h2⟩
  rcases hfound.2.2 (by rw [Inside, hq'.1]; simp) with h | ⟨h, -⟩
  · exact h
  · rw [hpoll] at h
    cases h

end SimCx

end Refault
