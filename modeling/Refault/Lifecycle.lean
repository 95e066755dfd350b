import Refault.Fifo
import Refault.Freeze

/-!
# Refault.Lifecycle — how a simulation runs and ends

The main loop leaves with nothing ready, and without a stop with nothing registered; the output is what the
root future returned; the teardown finds what it asserts and leaves no future behind.
-/

namespace Refault

/-- A task that has an entry and is not in the queue. -/
theorem TaskState.eq_waiting {st : TaskState} (hq : st.queued = false) (he : st.hasEntry = true) :
    st = .waiting := by
  revert hq he
  cases st <;> decide

namespace SimCx

variable {V Q : Type} [KeyedQueue Q Loc Instant] {b : SimBuilder} {s s' : SimCx V Q} {l : Label V}

/-- What the loop has left to the teardown. -/
def Left (s : SimCx V Q) : Prop :=
  (∃ rest, s.stack = .destroy :: rest) →
    (s.ex.finalStopped = true ∨ s.ex.readyQueue = []) ∧ ∀ loc, KeyedQueue.get s.ts.upcomingEvents loc = none

theorem Next.left (h : Next s l s') (hB : s.Base) : s'.Left := by
  rintro ⟨rest, hk'⟩
  have huser : s.InUser → s.stack ≠ .destroy :: rest := by
    rintro ⟨f, r, hk, hf⟩ hk''
    rw [hk] at hk''
    cases hk''
    cases hf
  have hpop : ∀ {f : Frame V} {r : List (Frame V)}, s.stack = f :: r → r ≠ .destroy :: rest := by
    rintro f r hk rfl
    exact absurd (hk ▸ hB.shape) Shape.destroy_top
  cases h with
  | exhausted order r hk hc hq hp => exact ⟨hq, KeyedQueue.get_of_peek_none _ hp⟩
  | skip op hu => exact absurd hk' (huser hu)
  | exec op e hu hq => exact absurd hk' (huser hu)
  | spawn node id hu => exact absurd hk' (huser hu)
  | newSleep loc d hu => exact absurd hk' (huser hu)
  | pollSleep loc sl w ts hu => exact absurd hk' (huser hu)
  | dropSleep loc hu => exact absurd hk' (huser hu)
  | addSimulator ty hu => exact absurd hk' (huser hu)
  | doneWaker r rest' hk | doneDropSim r rest' hk | stopAllDone order rest' hk | wakeDone order rest' hk hs
  | pollKept caller rest' id hk | doneDiscard r id post caller rest' hk | simsDone order cb len caller rest' hk =>
    exact absurd hk' (hpop hk)
  | putBack r i sim rest' hk => rcases hk with hk | hk <;> exact absurd hk' (hpop hk)
  | clear order rest' id q st hk => cases hk.symm.trans hk'
  | wakeTask order rest' loc t id q e hk => cases hk.symm.trans hk'
  | _ => cases hk'

theorem Reachable.left (hr : Reachable b s) : s.Left :=
  hr.invariant (I := Left) (fun ⟨_, h⟩ => by cases h) fun _ _ _ hB _ h => h.left hB

/-- After `destroy` has begun to drop the simulators the simulation is stopping. -/
theorem Reachable.end_stopped (hr : Reachable b s) {time : Duration} (ht : s.EndFrame time) :
    s.ex.finalStopped = true := by
  refine hr.invariant (I := fun s => ∀ time, s.EndFrame time → s.ex.finalStopped = true)
    (fun time h => by simp [EndFrame, install] at h) (fun s l s' hB hE h time ht => ?_) time ht
  rcases h.endFrame hB ht with ⟨h1, -⟩ | ⟨-, h1⟩
  · exact h.finalStopped hB (hE time h1)
  · exact h1

/-! ## The root future -/

/-- The root future returns, or nothing is returned. -/
theorem Next.ret (h : Next s l s') (hB : s.Base) :
    s'.ret = s.ret ∨ ∃ v caller rest, l = .user (.done (some v)) ∧ s.stack = .poll caller :: rest ∧
      s.ex.polling = s.root ∧ s.ret = none ∧ s'.ret = some v ∧ s'.ex.finalStopped = true ∧
      (∀ c, .poll c ∉ s'.stack) ∧ s'.ex.log = s.ex.log ++ [.rootReady v] := by
  cases h with
  | rootReady v caller rest id hk hc hr hroot hret =>
    refine Or.inr ⟨v, caller, rest, rfl, hk, ?_, hret, rfl, rfl, fun c => ?_, rfl⟩
    · rw [Exec.polling, hr, hroot]
      rfl
    · have hS := hB.shape
      rw [hk, hc] at hS
      obtain ⟨rfl, -⟩ := hS.nested.poll_eq
      simp
  | _ => exact Or.inl rfl

/-- The poll of the root task in which its future returns. -/
theorem step_rootReturns {v : V} {caller : NodeId} {rest : List (Frame V)} (hk : s.stack = .poll caller :: rest)
    (hroot : s.ex.polling = s.root) (h : s.step (.user (.done (some v))) = .ok s') : s'.ret = some v := by
  simp only [step, hk, Frame.isUser, if_true, userOp, done] at h
  unfold Exec.polling at hroot
  rw [if_pos hroot] at h
  unfold rootReady at h
  split at h
  · cases h
  · obtain ⟨-, h⟩ := borrow_bind.mp h
    cases h
    rfl

/-- A poll that is on the stack was there before, or begins, and not after the stop. -/
theorem Next.poll_mem (h : Next s l s') {c : NodeId} (hc : .poll c ∈ s'.stack) :
    .poll c ∈ s.stack ∨ s.ex.finalStopped = false := by
  rcases h.mem_stack hc with hm | hp
  · exact Or.inl hm
  · cases hp with
    | poll _ hf => exact Or.inr hf

/-- The root task, and what holds after its future has returned. -/
structure Root (s : SimCx V Q) : Prop where
  stopped : s.ret.isSome → s.ex.finalStopped = true
  polled : s.ret.isSome → ∀ c, .poll c ∉ s.stack
  spawned : ∀ id, s.root = some id → s.ex.state id ≠ .taskEnd
  root : .init ∉ s.stack → s.root.isSome

/-- The root task is spawned when `f` returns. -/
theorem Next.root (h : Next s l s') :
    (s'.root = s.root ∧ (.init ∈ s.stack → .init ∈ s'.stack)) ∨
      ∃ id, s'.root = some id ∧ s'.ex.state id ≠ .taskEnd := by
  have hpop : ∀ {f : Frame V} {rest : List (Frame V)}, s.stack = f :: rest → f ≠ .init → .init ∈ s.stack →
      .init ∈ rest := by
    intro f rest hk hf hi
    rw [hk] at hi
    exact (List.mem_cons.mp hi).resolve_left hf.symm
  cases h with
  | doneInit r rest id hk hc hrun hid hlt => exact Or.inr ⟨id, rfl, by simp⟩
  | rootReady v caller rest id hk hc hr hroot hret =>
    exact Or.inl ⟨rfl, fun hi => by simpa using hpop hk (by simp) hi⟩
  | pollDropped l caller rest id r e hk hc hr hd he ha hr' hf =>
    rcases hk with ⟨hk, -⟩ | ⟨v, order, hk, -⟩ <;>
      exact Or.inl ⟨rfl, fun hi => by simpa using hpop hk (by simp) hi⟩
  | doneWaker r rest hk | doneDropSim r rest hk | stopAllDone order rest hk | wakeDone order rest hk hs
  | pollKept caller rest id hk hc hr hl | doneDiscard r id post caller rest hk
  | simsDone order cb len caller rest hk hc hlen => exact Or.inl ⟨rfl, hpop hk (by simp)⟩
  | putBack r i sim rest hk hc hs => rcases hk with hk | hk <;> exact Or.inl ⟨rfl, hpop hk (by simp)⟩
  | exhausted order rest hk hc hq hp => exact Or.inl ⟨rfl, fun hi => by simpa using hpop hk (by simp) hi⟩
  | advance order rest loc next time hk hc hq hp ht =>
    exact Or.inl ⟨rfl, fun hi => by simpa using hpop hk (by simp) hi⟩
  | poll order rest id q hk hc hf hq hs hr => exact Or.inl ⟨rfl, fun hi => by simpa using hpop hk (by simp) hi⟩
  | wakeCustom order rest loc t n q hk hp hs =>
    exact Or.inl ⟨rfl, fun hi => by simpa using hpop hk (by simp) hi⟩
  | stopNext order id ids caller rest e hk hc hl =>
    exact Or.inl ⟨rfl, fun hi => by simpa using hpop hk (by simp) hi⟩
  | stopDrop order id ids caller rest hk hc hl hp =>
    exact Or.inl ⟨rfl, fun hi => by simpa using hpop hk (by simp) hi⟩
  | stopSims order caller rest hk hc => exact Or.inl ⟨rfl, fun hi => by simpa using hpop hk (by simp) hi⟩
  | simsNext order cb len i idx caller rest sim hk hc hs =>
    exact Or.inl ⟨rfl, fun hi => by simpa using hpop hk (by simp) hi⟩
  | stopAllRun order node nodes rest nd hk hc hn hrun hnd ho =>
    exact Or.inl ⟨rfl, fun hi => by simpa using hpop hk (by simp) hi⟩
  | stopAllSkip order node nodes rest nd hk hc hn hrun =>
    exact Or.inl ⟨rfl, fun hi => by simpa using hpop hk (by simp) hi⟩
  | destroy order rest hk hc hq => exact Or.inl ⟨rfl, fun hi => by simpa using hpop hk (by simp) hi⟩
  | dropSim order time rest sim hk hc hs => exact Or.inl ⟨rfl, fun hi => by simpa using hpop hk (by simp) hi⟩
  | taken order time rest hk hc hs => exact Or.inl ⟨rfl, fun hi => by simpa using hpop hk (by simp) hi⟩
  | _ => exact Or.inl ⟨rfl, fun hi => by simpa using hi⟩

theorem Next.rootInv (h : Next s l s') (hB : s.Base) (hR : s.Root) : s'.Root := by
  have hroot : (∀ id, s'.root = some id → s'.ex.state id ≠ .taskEnd) ∧ (.init ∉ s'.stack → s'.root.isSome) := by
    rcases h.root with ⟨h1, h2⟩ | ⟨id, h1, h2⟩
    · refine ⟨fun id hid => ?_, fun hi => h1 ▸ hR.root (mt h2 hi)⟩
      exact (h.on hB (n := s.ex.node id) ⟨hR.spawned id (h1 ▸ hid), rfl⟩).1
    · refine ⟨fun id' hid => ?_, fun _ => by rw [h1]; rfl⟩
      rw [h1] at hid
      cases hid
      exact h2
  rcases h.ret hB with hret | ⟨v, caller, rest, -, -, -, -, hret, hf, hp, -⟩
  · refine ⟨fun hv => h.finalStopped hB (hR.stopped (hret ▸ hv)), fun hv c hc => ?_, hroot.1, hroot.2⟩
    have hv' : s.ret.isSome := hret ▸ hv
    rcases h.poll_mem hc with h1 | h1
    · exact hR.polled hv' c h1
    · rw [hR.stopped hv'] at h1
      cases h1
  · exact ⟨fun _ => hf, fun _ => hp, hroot.1, hroot.2⟩

theorem Reachable.root (hr : Reachable b s) : s.Root := by
  refine hr.invariant (I := Root) ?_ fun _ _ _ hB hR h => h.rootInv hB hR
  exact ⟨fun h => (by cases h), fun h => (by cases h), fun id h => (by cases h),
    fun h => absurd (by simp [install]) h⟩

/-! ## The run -/

/-- In the run of `ls` the root task is polled in `m` and its future returns `v`. -/
def RootReturns (b : SimBuilder) (ls : List (Label V)) (v : V) (m : SimCx V Q) : Prop :=
  ∃ ls₁ ls₂ caller rest, ls = ls₁ ++ .user (.done (some v)) :: ls₂ ∧ Machine.run step (install b) ls₁ = .ok m ∧
    m.stack = .poll caller :: rest ∧ m.ex.polling = m.root

/-- What is returned stays. -/
theorem Reachable.ret_mono (hr : Reachable b s) {m : SimCx V Q} (h : Machine.Steps step s m) {v : V}
    (hv : s.ret = some v) : m.ret = some v ∧ ∀ id, polls id m.ex.log = polls id s.ex.log := by
  refine h.induct (P := fun m => m.ret = some v ∧ ∀ id, polls id m.ex.log = polls id s.ex.log)
    ⟨hv, fun _ => rfl⟩ ?_
  rintro m l m' hm ⟨hret, hp⟩ hst
  have hrm : Reachable b m := Machine.Steps.trans hr hm
  refine ⟨?_, fun id => (hrm.no_poll (hrm.root.stopped (by rw [hret]; rfl)) hst id).trans (hp id)⟩
  rcases (step_next hrm.base hst).ret hrm.base with h | ⟨_, _, _, _, _, _, h, -⟩
  · exact h.trans hret
  · rw [hret] at h
    cases h

/-- The output comes from a poll of the root task, the last poll of the run. -/
theorem ret_rootReturns {ls : List (Label V)} {v : V} (hrun : Machine.run step (install b) ls = .ok s)
    (hv : s.ret = some v) : ∃ m : SimCx V Q, RootReturns b ls v m := by
  induction ls using List.reverseRecOn generalizing s with
  | nil => cases hrun; cases hv
  | append_singleton ls l ih =>
    obtain ⟨m, h1, h2⟩ := Machine.run_append.mp hrun
    have hrm : Reachable b m := ⟨ls, h1⟩
    rcases (step_next hrm.base (Machine.run_single.mp h2)).ret hrm.base with
      h | ⟨v', caller, rest, rfl, hk, hroot, -, hret, -⟩
    · obtain ⟨m', ls₁, ls₂, caller, rest, rfl, h⟩ := ih h1 (h ▸ hv)
      exact ⟨m', ls₁, ls₂ ++ [l], caller, rest, by simp, h⟩
    · rw [hret] at hv
      cases hv
      exact ⟨m, ls, [], caller, rest, rfl, h1, hk, hroot⟩

theorem RootReturns.spec {ls : List (Label V)} {v : V} {m : SimCx V Q} (h : RootReturns b ls v m)
    (hrun : Machine.run step (install b) ls = .ok s) :
    s.ret = some v ∧ ∀ id, polls id s.ex.log = polls id m.ex.log := by
  obtain ⟨ls₁, ls₂, caller, rest, rfl, h1, hk, hroot⟩ := h
  obtain ⟨m₀, h2, h3⟩ := Machine.run_append.mp hrun
  obtain rfl : m₀ = m := Except.ok.inj (h2.symm.trans h1)
  obtain ⟨m', hst, h4⟩ := Machine.run_cons.mp h3
  have hr : Reachable b m₀ := ⟨ls₁, h1⟩
  have hret := step_rootReturns hk hroot hst
  have hlog : ∀ id, polls id m'.ex.log = polls id m₀.ex.log := fun id => by
    rcases (step_next hr.base hst).ret hr.base with h | ⟨v', caller', rest', -, -, -, -, -, -, -, hlog⟩
    · -- a root future that has returned is not polled
      exact absurd (hk ▸ List.mem_cons_self) (hr.root.polled (by rw [← h, hret]; rfl) caller)
    · rw [hlog, polls_append]
      rfl
  obtain ⟨h5, h6⟩ := Reachable.ret_mono (Machine.Steps.tail hr hst) ⟨ls₂, h4⟩ hret
  exact ⟨h5, fun id => (h6 id).trans (hlog id)⟩

/-- Nothing is ready where the loop does not find a task. -/
theorem Reachable.not_ready (hr : Reachable b s) {rest : List (Frame V)} (hk : s.stack = .loop :: rest)
    (hq : s.ex.finalStopped = true ∨ s.ex.readyQueue = []) (id : Id) : s.ex.state id ≠ .ready := by
  intro hs
  rcases hq with hf | hq
  · have hl := hr.stopped_dead hf (hr.quiescent_loop hk) id
    rw [hs] at hl
    cases hl
  · have hm := (hr.base.exec.queued id).mpr (by rw [hs]; rfl)
    rw [hq] at hm
    cases hm

/-- No future is left when the simulation thread has returned. -/
theorem Reachable.finished_drops (hr : Reachable b s) {time : Duration} (hk : s.stack = [.finished time]) {id : Id}
    (hs : s.ex.state id ≠ .taskEnd) : (drops id s.ex.log).length = 1 ∧ ∀ entry, s.ex.tasks id = some entry →
      entry.task = none := by
  have hS := hr.base.shape
  rw [hk] at hS
  have hrun : s.ex.running = none := by simpa using hS.finished_eq.2.1
  have hq : s.Quiescent := fun f hf => by
    rw [hk, List.mem_singleton] at hf
    rw [hf]
    rfl
  have hl := hr.stopped_dead (hr.end_stopped (show s.EndFrame time from Or.inr (by rw [hk]; simp))) hq id
  have ho : ¬ s.ex.Open id := by
    rintro (h | h | h)
    · exact hs h
    · rw [hl] at h
      cases h
    · rw [Exec.polling, hrun] at h
      cases h
  obtain ⟨r, b, hd, -⟩ := (hr.accounts id).closed ho
  refine ⟨by rw [hd]; rfl, fun entry he => ?_⟩
  rw [hr.base.exec.tasks_eq] at he
  unfold Exec.expected at he
  cases hst : s.ex.state id <;> rw [hst] at he hl <;> cases he <;> first | rfl | cases hl

/-- **How a simulation runs and ends**, in every run.  A step that moves a clock starts where no task is
ready.  The loop is left, without a stop, where no task is ready and no `Sleep` is registered, and every task
that is left waits.  The output is `v` if and only if the root future returned `v` in a poll, and nothing is
polled after that poll.  The loop leaves what `destroy` asserts, and no step fails at an assertion of the
runtime.  When the thread returns, the executor holds no future, and the root task's was dropped, with
everything the future captured. -/
theorem runs_and_ends {ls : List (Label V)} (hrun : Machine.run step (install b) ls = .ok s) :
    (∀ l s', s.step l = .ok s' → s'.time ≠ s.time ∨ s'.ts.now ≠ s.ts.now → ∀ id, s.ex.state id ≠ .ready) ∧
    (∀ rest, s.stack = .destroy :: rest → s.ex.finalStopped = false → (∀ id, s.ex.state id ≠ .ready) ∧
      (∀ loc, KeyedQueue.get s.ts.upcomingEvents loc = none) ∧
      ∀ id, (s.ex.tasks id).isSome → s.ex.state id = .waiting) ∧
    (∀ v, s.ret = some v ↔ ∃ m : SimCx V Q, RootReturns b ls v m) ∧
    (∀ v (m : SimCx V Q), RootReturns b ls v m → ∀ id, polls id s.ex.log = polls id m.ex.log) ∧
    (∀ rest, s.stack = .destroy :: rest → s.ex.readyQueue = [] ∨ s.ex.finalStopped = true) ∧
    (∀ l x, s.step l ≠ .error (.panic (.site x))) ∧
    ∀ time, s.stack = [.finished time] →
      (∀ id, s.ex.state id ≠ .taskEnd → (drops id s.ex.log).length = 1) ∧
      (∀ id entry, s.ex.tasks id = some entry → entry.task = none) ∧ s.ex.running = none ∧
      ∃ id, s.root = some id ∧ (drops id s.ex.log).length = 1 := by
  have hr : Reachable b s := ⟨ls, hrun⟩
  have hI := hr.base.exec
  refine ⟨fun l s' hst hne => ?_, fun rest hk hf => ?_, fun v => ⟨ret_rootReturns hrun, ?_⟩,
    fun v m h => (h.spec hrun).2,
    fun rest hk => (hr.left ⟨rest, hk⟩).1.symm, fun l x h => ?_, fun time hk => ?_⟩
  · rcases (step_next hr.base hst).clock with ⟨h1, h2, -⟩ | ⟨dt, hadv⟩
    · rcases hne with h | h
      · exact absurd h1 h
      · exact absurd h2 h
    · obtain ⟨rest, hk, -⟩ := hadv.stack
      exact hr.not_ready hk hadv.queue
  · obtain ⟨hq | hq, hget⟩ := hr.left ⟨rest, hk⟩
    · rw [hf] at hq
      cases hq
    · have hno : ∀ id, (s.ex.state id).queued = false := fun id => by
        by_contra h
        rw [Bool.not_eq_false] at h
        have := (hI.queued id).mpr h
        rw [hq] at this
        cases this
      refine ⟨fun id hs => ?_, hget, fun id he => ?_⟩
      · have := hno id
        rw [hs] at this
        cases this
      · have h1 := hno id
        have h2 := (hI.isSome_iff _).mp he
        exact TaskState.eq_waiting h1 h2
  · rintro ⟨m, h⟩
    exact (h.spec hrun).1
  · rcases step_site hr.base h with ⟨-, hret, caller, rest, hk, -⟩ | ⟨-, hk, hq, hf⟩
    · exact hr.root.polled hret caller (by rw [hk]; simp)
    · rcases (hr.left ⟨_, hk⟩).1 with h1 | h1
      · rw [hf] at h1
        cases h1
      · exact hq h1
  · have hS := hr.base.shape
    rw [hk] at hS
    obtain ⟨id, hid⟩ := Option.isSome_iff_exists.mp (hr.root.root (by rw [hk]; simp))
    refine ⟨fun id hs => (hr.finished_drops hk hs).1, fun id entry he => ?_,
      by simpa using hS.finished_eq.2.1, id, hid, (hr.finished_drops hk (hr.root.spawned id hid)).1⟩
    refine (hr.finished_drops hk (show s.ex.state id ≠ .taskEnd from fun hs => ?_)).2 entry he
    have := (hI.isSome_iff id).mp (by rw [he]; rfl)
    rw [hs] at this
    cases this

/-- The root task sleeps for five seconds and returns. -/
def wholeRun : List (Label ℕ) :=
  advanceRun ++ [.run [], .run [], .run [], .user (.pollSleep 0 (.task 1)), .user (.dropSleep 0),
    .user (.done (some 7)),
    .run [1], .run [], .run [], .run [], .run [], .run [], .user (.done none), .run [], .run [], .run [],
      .run [], .run []]

theorem runs_and_ends_whole : ∃ s : ArraySim, Machine.run step (install epoch) wholeRun = .ok s ∧
    s.ret = some 7 ∧ ∃ m : ArraySim, RootReturns epoch wholeRun 7 m := by
  obtain ⟨s, hs, hq⟩ : ∃ s : ArraySim, Machine.run step (install epoch) wholeRun = .ok s ∧
      s.ret = some 7 := Machine.exists_of_run (by decide +kernel)
  exact ⟨s, hs, hq, ((runs_and_ends hs).2.2.1 7).mp hq⟩

end SimCx

end Refault
