import Refault.Course
import Refault.Fifo

/-!
# Refault.Waiting — how long a task waits for its next poll

A task in the ready queue waits for the tasks ahead of it and for no others, and the clock stands still
meanwhile.  A task that polled a `Sleep` is in the queue when the deadline comes, so it is polled at that
instant or before.
-/

namespace Refault

variable {V : Type}

/-- The tasks polled in a piece of the log. -/
def pollsIn (os : List (Obs V)) : List Id :=
  os.filterMap fun
    | .poll id => some id
    | _ => none

/-- Nothing in this piece of the log polls the task, aborts it or completes it. -/
def PassesBy (id : Id) (os : List (Obs V)) : Prop := .poll id ∉ os ∧ .abort id ∉ os ∧ ∀ v, .ret id (some v) ∉ os

theorem PassesBy.of_append {id : Id} {os os' : List (Obs V)} (h : PassesBy id (os ++ os')) : PassesBy id os :=
  ⟨fun h0 => h.1 (List.mem_append_left _ h0), fun h0 => h.2.1 (List.mem_append_left _ h0),
    fun v h0 => h.2.2 v (List.mem_append_left _ h0)⟩

theorem PassesBy.of_append_right {id : Id} {os os' : List (Obs V)} (h : PassesBy id (os ++ os')) :
    PassesBy id os' :=
  ⟨fun h0 => h.1 (List.mem_append_right _ h0), fun h0 => h.2.1 (List.mem_append_right _ h0),
    fun v h0 => h.2.2 v (List.mem_append_right _ h0)⟩

theorem PassesBy.poll_notMem {id : Id} {os : List (Obs V)} (h : PassesBy id os) :
    .poll id ∉ schedLog os := fun h0 => by
  obtain ⟨o, ho, hs⟩ := List.mem_filterMap.mp h0
  exact h.1 (Obs.eq_poll hs ▸ ho)

theorem PassesBy.remove_notMem {id : Id} {os : List (Obs V)} (h : PassesBy id os) :
    .remove id ∉ schedLog os := fun h0 => by
  obtain ⟨o, ho, hs⟩ := List.mem_filterMap.mp h0
  rcases Obs.eq_remove hs with rfl | ⟨v, rfl⟩
  · exact h.2.1 ho
  · exact h.2.2 v ho

theorem polled_schedLog (os : List (Obs V)) : FifoScheduler.polled (schedLog os) = pollsIn os := by
  unfold FifoScheduler.polled schedLog pollsIn
  rw [List.filterMap_filterMap]
  refine congrArg (List.filterMap · os) (funext fun o => ?_)
  cases o with
  | ret id v => cases v <;> rfl
  | _ => rfl

theorem PassesBy.polls_eq {id : Id} {os : List (Obs V)} (h : PassesBy id os) (log : List (Obs V)) :
    polls id (log ++ os) = polls id log := by
  have hno : polls id os = 0 := by
    refine List.countP_eq_zero.mpr fun o ho => ?_
    cases o with
    | poll i =>
      simp only [decide_eq_true_eq]
      rintro rfl
      exact h.1 ho
    | _ => simp
  rw [polls_append, hno, Nat.add_zero]

namespace Exec

/-- The ready tasks ahead of `id`. -/
def ahead (e : Exec V) (id : Id) : List Id := e.ready.takeWhile (· ≠ id)

theorem Refines.ahead {e : Exec V} {a : FifoScheduler Id} (hR : e.Refines a) (id : Id) :
    e.ahead id = a.ahead id := by
  rw [Exec.ahead, ← hR.queue]
  rfl

theorem Refines.mem_queue {e : Exec V} {a : FifoScheduler Id} (hR : e.Refines a) (hI : e.Inv) {id : Id} :
    id ∈ a.queue ↔ e.state id = .ready := by
  rw [hR.queue]
  exact mem_ready hI

/-- A ready task that stays live and is not polled stays ready. -/
theorem Act.ready_keep {e e' : Exec V} (h : Act e e') (hI : e.Inv) {id : Id} (hs : e.state id = .ready)
    (hl : (e'.state id).live = true) (hp : Refault.polls id e'.log = Refault.polls id e.log) :
    e'.state id = .ready := by
  cases h with
  | spawn node j hrun hid hlt =>
    have hne : id ≠ j := by
      rintro rfl
      rw [hI.fresh id (hid ▸ Nat.lt_succ_self _)] at hs
      cases hs
    simpa [hne, state_insertTask] using hs
  | wake j hj =>
    by_cases hne : id = j
    · simp [hne]
    · simpa [hne] using hs
  | abortPolled j hj hpj =>
    by_cases hne : id = j
    · subst hne
      simp [TaskState.live] at hl
    · simpa [hne] using hs
  | abort j hj hpj =>
    by_cases hne : id = j
    · subst hne
      simp [dropUnsent, TaskState.live] at hl
    · simpa [hne, dropUnsent] using hs
  | poll j q hq hj hr hf =>
    by_cases hne : id = j
    · subst hne
      simp [takeHead, Refault.polls] at hp
    · simpa [hne, takeHead] using hs
  | clear j q st hq hj hr hf =>
    have hne : id ≠ j := by
      rintro rfl
      rcases hj with ⟨hj, -⟩ | ⟨hj, -⟩ <;> rw [hj] at hs <;> cases hs
    simpa [hne, clearHead] using hs
  | ready j v hr hj | readyQueued j v hr hj =>
    by_cases hne : id = j
    · subst hne
      simp [sent, TaskState.live] at hl
    · simpa [hne, sent] using hs
  | pendingAborted j hr hj => simpa [dropUnsent] using hs
  | _ => exact hs

end Exec

namespace SimCx

variable {Q : Type} [KeyedQueue Q Loc Instant] {b : SimBuilder} {s s' : SimCx V Q} {l : Label V} {id : Id}

theorem Reachable.log_split (hr : Reachable b s) (h : Machine.Steps step s s') :
    ∃ os, s'.ex.log = s.ex.log ++ os :=
  h.inv_of (J := SimCx.Base) (I := fun s' => ∃ os, s'.ex.log = s.ex.log ++ os) (fun _ _ _ => step_base)
    (fun m l m' hB ⟨os, hos⟩ hst => by
      obtain ⟨os', hos'⟩ := (step_next hB hst).log hB
      exact ⟨os ++ os', by rw [hos', hos, List.append_assoc]⟩) hr.base ⟨[], (List.append_nil _).symm⟩

/-- What the plain scheduler reads between two states of a run. -/
theorem Reachable.refines_between (hr : Reachable b s) (h : Machine.Steps step s s') {os : List (Obs V)}
    (hos : s'.ex.log = s.ex.log ++ os) : ∃ a a', s.ex.Refines a ∧ s'.ex.Refines a' ∧
      Machine.accept FifoScheduler.step a (schedLog os) = some a' := by
  obtain ⟨a, ha, hR⟩ := hr.refines
  obtain ⟨a', ha', hR'⟩ := Reachable.refines (hr.trans h : Reachable b s')
  refine ⟨a, a', hR, hR', ?_⟩
  have hsplit : schedLog s'.ex.log = schedLog s.ex.log ++ schedLog os := by rw [hos]; exact List.filterMap_append
  rw [hsplit, Machine.accept_append, ha] at ha'
  exact ha'

/-- A ready task stays in the queue, and the polls are those of tasks that were ahead of it. -/
theorem Reachable.ready_kept (hr : Reachable b s) (hid : s.ex.state id = .ready) (h : Machine.Steps step s s')
    {os : List (Obs V)} (hos : s'.ex.log = s.ex.log ++ os) (hsp : PassesBy id os) :
    s'.ex.state id = .ready ∧ (pollsIn os ++ s'.ex.ahead id).Sublist (s.ex.ahead id) := by
  obtain ⟨a, a', hR, hR', hacc⟩ := hr.refines_between h hos
  have hin := (hR.mem_queue hr.base.exec).mpr hid
  obtain ⟨h1, h2⟩ := FifoScheduler.polled_ahead hacc hin hsp.poll_notMem hsp.remove_notMem
  have hB' := Reachable.base (hr.trans h : Reachable b s')
  rw [polled_schedLog] at h2
  rw [hR.ahead, hR'.ahead]
  exact ⟨(hR'.mem_queue hB'.exec).mp h1, h2⟩

theorem Reachable.live_kept (hr : Reachable b s) (hid : (s.ex.state id).live = true) (h : Machine.Steps step s s')
    {os : List (Obs V)} (hos : s'.ex.log = s.ex.log ++ os) (hsp : PassesBy id os) :
    (s'.ex.state id).live = true := by
  obtain ⟨a, a', hR, hR', hacc⟩ := hr.refines_between h hos
  exact (hR'.live id).mp (FifoScheduler.live_kept hacc ((hR.live id).mpr hid) hsp.remove_notMem)

/-- The simulation was not stopped before if it is not stopped now. -/
theorem Next.not_stopped (h : Next s l s') (hB : s.Base) (hf : s'.ex.finalStopped = false) :
    s.ex.finalStopped = false := by
  by_contra h0
  rw [h.finalStopped hB (by simpa using h0)] at hf
  cases hf

/-- The clock stands still while a task is ready. -/
theorem Reachable.now_kept (hr : Reachable b s) (hid : s.ex.state id = .ready) (h : Machine.Steps step s s')
    {os : List (Obs V)} (hos : s'.ex.log = s.ex.log ++ os) (hsp : PassesBy id os)
    (hf : s'.ex.finalStopped = false) : s'.ts.now = s.ts.now := by
  refine Machine.Steps.induct (P := fun s' => ∀ os, s'.ex.log = s.ex.log ++ os → PassesBy id os →
    s'.ex.finalStopped = false → s'.ts.now = s.ts.now) (fun _ _ _ _ => rfl)
      (fun m l m' hm ih hst os hos hsp hf => ?_) h os
    hos hsp hf
  have hrm : Reachable b m := hr.trans hm
  have hn := step_next hrm.base hst
  obtain ⟨os₁, hos₁⟩ := hr.log_split hm
  obtain ⟨os₂, hos₂⟩ := hn.log hrm.base
  obtain rfl : os = os₁ ++ os₂ := List.append_cancel_left (hos.symm.trans (by rw [hos₂, hos₁, List.append_assoc]))
  have hfm := hn.not_stopped hrm.base hf
  rw [hn.now_of_ready hrm.base hfm (hr.ready_kept hid hm hos₁ hsp.of_append).1]
  exact ih os₁ hos₁ hsp.of_append hfm

/-- The loop goes on to the first of the tasks ahead of a ready task, or to that task. -/
theorem Reachable.next_poll (hr : Reachable b s) (hid : s.ex.state id = .ready) {rest : List (Frame V)}
    (hk : s.stack = .loop :: rest) (hf : s.ex.finalStopped = false) :
    ∃ m m' j, Machine.Steps step s m ∧ m.ex.log = s.ex.log ∧ m.step (.run []) = .ok m' ∧
      m'.ex.log = m.ex.log ++ [.poll j] ∧ (s.ex.ahead id ++ [id]).head? = some j := by
  obtain ⟨m, hm, hlog, -, hend⟩ := loop_clears _ s rfl hr.base hk hf
  have hrm : Reachable b m := hr.trans hm
  have hnone : PassesBy id ([] : List (Obs V)) := ⟨List.not_mem_nil, List.not_mem_nil, fun _ => List.not_mem_nil⟩
  have hlog' : m.ex.log = s.ex.log ++ [] := by rw [hlog, List.append_nil]
  have hidm := (hr.ready_kept hid hm hlog' hnone).1
  rcases hend with h0 | ⟨j, q, m', hq, hj, hst, hpoll⟩
  · have hmem : id ∈ m.ex.readyQueue := by rw [hrm.base.exec.queued, hidm]; rfl
    rw [h0] at hmem
    cases hmem
  · refine ⟨m, m', j, hm, hlog, hst, hpoll, ?_⟩
    -- the queue without its tombstones is the same for both, and `j` is its head
    obtain ⟨a, a', hR, hR', hacc⟩ := hr.refines_between hm hlog'
    obtain rfl : a = a' := Option.some.inj hacc
    have hready : s.ex.ready = j :: q.filter fun k => m.ex.state k = .ready := by
      rw [← hR.queue, hR'.queue, Exec.ready, hq, List.filter_cons_of_pos (by simpa using hj)]
    unfold Exec.ahead
    rw [hready]
    by_cases hji : j = id
    · simp [hji]
    · rw [List.takeWhile_cons_of_pos (by simpa using hji)]
      rfl

/-- **A ready task waits for the tasks ahead of it, each once, and for nothing else.**  In every run from a
state where a task is ready, until it is polled or removed, only the tasks that were ahead of it in the queue
are polled, each at most once and in their order, whatever is woken, spawned or aborted meanwhile.  The task
stays ready, and unless the simulation is stopped the clock does not move and whenever the run is back at the
loop, the loop polls the first of the tasks that are still ahead, or the task itself when none is left. -/
theorem ready_waits_its_turn (hr : Reachable b s) (hid : s.ex.state id = .ready) {ls : List (Label V)}
    (hrun : Machine.run step s ls = .ok s') : ∃ os, s'.ex.log = s.ex.log ++ os ∧
      (∀ pre post, os = pre ++ post → PassesBy id pre → (pollsIn pre).Sublist (s.ex.ahead id)) ∧
      (PassesBy id os → s'.ex.state id = .ready ∧ (pollsIn os ++ s'.ex.ahead id).Sublist (s.ex.ahead id) ∧
        (s'.ex.finalStopped = false → s'.ts.now = s.ts.now ∧ ∀ rest, s'.stack = .loop :: rest →
          ∃ m m' j, Machine.Steps step s' m ∧ m.ex.log = s'.ex.log ∧ m.step (.run []) = .ok m' ∧
            m'.ex.log = m.ex.log ++ [.poll j] ∧ (s'.ex.ahead id ++ [id]).head? = some j)) := by
  have h : Machine.Steps step s s' := ⟨ls, hrun⟩
  obtain ⟨os, hos⟩ := hr.log_split h
  refine ⟨os, hos, ?_, fun hsp => ?_⟩
  · rintro pre post rfl hsp
    obtain ⟨a, a', hR, -, hacc⟩ := hr.refines_between h hos
    have hsplit : schedLog (pre ++ post) = schedLog pre ++ schedLog post := List.filterMap_append
    rw [hsplit, Machine.accept_append] at hacc
    obtain ⟨a₁, hacc₁, -⟩ := Option.bind_eq_some_iff.mp hacc
    have hin := (hR.mem_queue hr.base.exec).mpr hid
    have hsub := (FifoScheduler.polled_ahead hacc₁ hin hsp.poll_notMem hsp.remove_notMem).2
    rw [polled_schedLog] at hsub
    rw [hR.ahead]
    exact (List.sublist_append_left _ _).trans hsub
  · obtain ⟨hready, hsub⟩ := hr.ready_kept hid h hos hsp
    refine ⟨hready, hsub, fun hf => ⟨hr.now_kept hid h hos hsp hf, fun rest hk => ?_⟩⟩
    exact Reachable.next_poll (hr.trans h : Reachable b s') hready hk hf

/-- The root task spawns the tasks 2 and 3. -/
def twoReadyRun : List (Label ℕ) := [.user (.done none), .run [], .user (.spawn 0), .user (.spawn 0)]

/-- Task 3 is ready behind task 2, which the loop polls. -/
theorem ready_waits_its_turn_behind : ∃ s s' : ArraySim, Machine.run step (install epoch) twoReadyRun = .ok s ∧
    Machine.run step s [.user (.done none), .run []] = .ok s' ∧ s.ex.ahead 3 = [2] ∧
      s'.ex.log = s.ex.log ++ [.ret 1 none, .poll 2] ∧ s'.ex.state 3 = .ready ∧ s'.ts.now = s.ts.now := by
  obtain ⟨s, hs, hq⟩ : ∃ s : ArraySim, Machine.run step (install epoch) twoReadyRun = .ok s ∧
      (s.ex.state 3, s.ex.ahead 3, s.ex.log) =
        (.ready, [2], [.spawn 1 0, .wake 1, .poll 1, .spawn 2 0, .wake 2, .spawn 3 0, .wake 3]) :=
          Machine.exists_of_run rfl
  simp only [Prod.mk.injEq] at hq
  obtain ⟨hready, hahead, hlog⟩ := hq
  obtain ⟨s', hs', hq'⟩ : ∃ s' : ArraySim, Machine.run step (install epoch)
      (twoReadyRun ++ [.user (.done none), .run []]) = .ok s' ∧ (s'.ex.finalStopped, s'.ex.log) =
        (false, [.spawn 1 0, .wake 1, .poll 1, .spawn 2 0, .wake 2, .spawn 3 0, .wake 3, .ret 1 none, .poll 2]) :=
    Machine.exists_of_run rfl
  simp only [Prod.mk.injEq] at hq'
  obtain ⟨m, hm, hrun⟩ := Machine.run_append.mp hs'
  obtain rfl : s = m := Except.ok.inj (hs.symm.trans hm)
  obtain ⟨os, hos, -, h⟩ := ready_waits_its_turn ⟨_, hs⟩ hready hrun
  obtain rfl : os = [.ret 1 none, .poll 2] := by
    rw [hlog, hq'.2] at hos
    simpa using hos.symm
  obtain ⟨h1, -, h2⟩ := h ⟨by simp, by simp, by simp⟩
  exact ⟨s, s', hs, hrun, hahead, hos, h1, (h2 hq'.1).1⟩

/-! ## Asleep until the deadline -/

/-- The task `id` polled the `Sleep` at `loc` last, and is asleep, or is woken and in the queue. -/
inductive Dozes (s : SimCx V Q) (id : Id) (loc : Loc) (d : Instant) : Prop
  | asleep (hs : s.ts.sleeps loc = some ⟨d, .waiting (.task id)⟩)
  | woken (hn : s.ts.now = d) (hs : s.ts.sleeps loc = some ⟨d, .done d⟩) (hready : s.ex.state id = .ready)

variable {loc : Loc} {d : Instant}

theorem Dozes.step (hD : s.Dozes id loc d) (hB : s.Base) (hl : (s.ex.state id).live = true) (h : Next s l s')
    (hleave : LeavesSleep loc l) (hl' : (s'.ex.state id).live = true) (hp : polls id s'.ex.log = polls id s.ex.log)
    (hf : s.ex.finalStopped = false) : s'.Dozes id loc d := by
  cases hD with
  | asleep hs =>
    rcases h.sleep_keep hB hleave hs with h0 | ⟨w, h0, hnow, hs', hw⟩
    · exact .asleep h0
    · cases h0
      exact .woken hnow hs' (Exec.wakeByRef_ready hl (hw id rfl))
  | woken hnow hs hready =>
    have hready' : s'.ex.state id = .ready := by
      rcases h.act hB with he | he
      · rw [he]
        exact hready
      · exact he.ready_keep hB.exec hready hl' hp
    have hnow' := h.now_of_ready hB hf hready
    rcases h.sleep_keep hB hleave hs with h0 | ⟨w, h0, -⟩
    · exact .woken (hnow'.trans hnow) h0 hready'
    · cases h0

/-- The clock does not pass the deadline, nor does the next step take it past. -/
theorem Dozes.now_le (hD : s.Dozes id loc d) (hB : s.Base) : s.ts.now ≤ d := by
  cases hD with
  | asleep hs => exact hB.sleep.now_le loc d ((hB.sleep.due_iff loc d).mpr ⟨_, hs⟩)
  | woken hnow hs hready => exact hnow.le

theorem Dozes.now_le_step (hD : s.Dozes id loc d) (hB : s.Base) (h : Next s l s')
    (hf : s.ex.finalStopped = false) : s'.ts.now ≤ d := by
  cases hD with
  | asleep hs =>
    have hdue : s.ts.due loc = some d := (hB.sleep.due_iff loc d).mpr ⟨_, hs⟩
    rcases h.clock with ⟨-, hn, -⟩ | ⟨dt, hadv⟩
    · rw [hn]
      exact hB.sleep.now_le loc d hdue
    · exact hadv.least.2 loc d hdue
  | woken hnow hs hready => rw [h.now_of_ready hB hf hready, hnow]

theorem Reachable.dozes (hr : Reachable b s) (hD : s.Dozes id loc d) (hl : (s.ex.state id).live = true)
    {ls : List (Label V)}
    (hls : ∀ l ∈ ls, LeavesSleep loc l) (hrun : Machine.run step s ls = .ok s') {os : List (Obs V)}
    (hos : s'.ex.log = s.ex.log ++ os) (hsp : PassesBy id os) (hf : s'.ex.finalStopped = false) :
    s'.Dozes id loc d := by
  induction ls using List.reverseRecOn generalizing s' os with
  | nil => cases hrun; exact hD
  | append_singleton ls l ih =>
    obtain ⟨m, h1, h2⟩ := Machine.run_append.mp hrun
    have hst := Machine.run_single.mp h2
    have hrm : Reachable b m := hr.trans ⟨ls, h1⟩
    obtain ⟨os₁, hos₁⟩ := hr.log_split ⟨ls, h1⟩
    obtain ⟨os₂, hos₂⟩ := (step_next hrm.base hst).log hrm.base
    obtain rfl : os = os₁ ++ os₂ :=
      List.append_cancel_left (hos.symm.trans (by rw [hos₂, hos₁, List.append_assoc]))
    have hn := step_next hrm.base hst
    have hfm := hn.not_stopped hrm.base hf
    have hDm := ih (fun l' hl' => hls l' (List.mem_append_left _ hl')) h1 hos₁ hsp.of_append hfm
    refine hDm.step hrm.base (hr.live_kept hl ⟨ls, h1⟩ hos₁ hsp.of_append) hn (hls l (by simp))
      (hr.live_kept hl ⟨ls ++ [l], hrun⟩ hos hsp) ?_ hfm
    rw [hos₂]
    exact hsp.of_append_right.polls_eq _

/-- **A sleeping task is polled again by its deadline.**  A live task was the last to poll a `Sleep` that is
registered.  In every run from there in which that `Sleep` is left alone, as long as the task is neither
polled nor removed and the simulation is not stopped, the task is still asleep or it is ready, with the clock
at the deadline.  The clock has not passed the deadline and no step takes it past, the next poll of the task
included. -/
theorem sleeper_is_polled_by_its_deadline (hr : Reachable b s)
    (hs : s.ts.sleeps loc = some ⟨d, .waiting (.task id)⟩)
    (hl : (s.ex.state id).live = true) {ls : List (Label V)} (hls : ∀ l ∈ ls, LeavesSleep loc l)
    (hrun : Machine.run step s ls = .ok s') : ∃ os, s'.ex.log = s.ex.log ++ os ∧
      (PassesBy id os → s'.ex.finalStopped = false → s'.ts.now ≤ d ∧
        (s'.ts.sleeps loc = some ⟨d, .waiting (.task id)⟩ ∨ s'.ts.now = d ∧ s'.ex.state id = .ready) ∧
        ∀ l s'', s'.step l = .ok s'' → s''.ts.now ≤ d) := by
  obtain ⟨os, hos⟩ := hr.log_split ⟨ls, hrun⟩
  refine ⟨os, hos, fun hsp hf => ?_⟩
  have hB' := Reachable.base (hr.trans ⟨ls, hrun⟩ : Reachable b s')
  have hD := hr.dozes (.asleep hs) hl hls hrun hos hsp hf
  refine ⟨hD.now_le hB', ?_, fun l s'' hst => hD.now_le_step hB' (step_next hB' hst) hf⟩
  cases hD with
  | asleep hs' => exact Or.inl hs'
  | woken hnow hs' hready => exact Or.inr ⟨hnow, hready⟩

/-- The root task is asleep until five seconds after the epoch, and the loop moves the clock there. -/
theorem sleeper_is_polled_by_its_deadline_advance : ∃ s s' : ArraySim,
    Machine.run step (install epoch) advanceRun.dropLast = .ok s ∧ Machine.run step s [.run []] = .ok s' ∧
      s.ts.now < s'.ts.now ∧ s'.ts.now ≤ fiveSeconds := by
  obtain ⟨s, hs, hq⟩ : ∃ s : ArraySim, Machine.run step (install epoch) advanceRun.dropLast = .ok s ∧
      (s.ts.sleeps 0, s.ex.state 1, s.ex.log, decide (s.ts.now < fiveSeconds)) =
        (some ⟨fiveSeconds, .waiting (.task 1)⟩, .waiting, [.spawn 1 0, .wake 1, .poll 1, .ret 1 none], true) :=
    Machine.exists_of_run (by decide +kernel)
  simp only [Prod.mk.injEq, decide_eq_true_eq] at hq
  obtain ⟨hsleep, hstate, hlog, hlt⟩ := hq
  obtain ⟨s', hs', hq'⟩ : ∃ s' : ArraySim, Machine.run step (install epoch)
      (advanceRun.dropLast ++ [.run []]) = .ok s' ∧
      (s'.ex.finalStopped, s'.ex.log, decide (s'.ts.now = fiveSeconds)) =
        (false, [.spawn 1 0, .wake 1, .poll 1, .ret 1 none, .exhausted], true) :=
          Machine.exists_of_run (by decide +kernel)
  simp only [Prod.mk.injEq, decide_eq_true_eq] at hq'
  obtain ⟨m, hm, hrun⟩ := Machine.run_append.mp hs'
  obtain rfl : s = m := Except.ok.inj (hs.symm.trans hm)
  obtain ⟨os, hos, h⟩ :=
    sleeper_is_polled_by_its_deadline ⟨_, hs⟩ hsleep (by rw [hstate]; rfl) (by simp [LeavesSleep]) hrun
  obtain rfl : os = [.exhausted] := by
    rw [hlog, hq'.2.1] at hos
    simpa using hos.symm
  exact ⟨s, s', hs, hrun, hq'.2.2 ▸ hlt, (h ⟨by simp, by simp, by simp⟩ hq'.1).1⟩

end SimCx

end Refault
