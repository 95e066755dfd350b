import Refault.SleepPolls

/-!
# Refault.YieldNow — what `yield_now` does

`SimRuntime::yield_now` is a `Sleep` to the current instant.  Its first poll finds the deadline reached and is
ready, so the task that awaits it goes on in the same poll.
-/

namespace Refault

variable {V Q : Type}

/-- The calls of a task that awaits `SimRuntime::yield_now()`, its `Sleep` at `loc`:
`sleep_until(Instant::now())`, the first poll, and the drop of the `Sleep` when the await is over. -/
def SimRuntime.yieldNow (s : SimCx V Q) (loc : Loc) (w : Waker) : List (Label V) :=
  [.user (.newSleep loc (SimCx.clockGettime s.time)), .user (.pollSleep loc w), .user (.dropSleep loc)]

/-- `Yielder::yield_now` and `yield_now_local` of `Spawner`. -/
def Spawner.yieldNow (s : SimCx V Q) (loc : Loc) (w : Waker) : List (Label V) := SimRuntime.yieldNow s loc w

def Spawner.yieldNowLocal (s : SimCx V Q) (loc : Loc) (w : Waker) : List (Label V) := SimRuntime.yieldNow s loc w

/-- The ways to yield. -/
def yields (s : SimCx V Q) (loc : Loc) (w : Waker) : List (List (Label V)) :=
  [SimRuntime.yieldNow s loc w, Spawner.yieldNow s loc w, Spawner.yieldNowLocal s loc w]

namespace SimCx

/-- Every task that is ready at `s` has been polled or found aborted when `s'` is reached. -/
def GaveWay (s s' : SimCx V Q) : Prop := ∀ id ∈ s.ex.readyQueue, s.ex.state id = .ready →
  ∃ os, s'.ex.log = s.ex.log ++ os ∧ (.poll id ∈ os ∨ s'.ex.state id = .aborted)

/-- The future of `yield_now` is ready at its first poll. -/
def ReadyAtOnce (s s' : SimCx V Q) (loc : Loc) (w : Waker) : Prop :=
  s'.ts.log = s.ts.log ++ [.new loc s.ts.now, .poll loc w (some s.ts.now), .drop loc]

variable [KeyedQueue Q Loc Instant] {b : SimBuilder} {s s' : SimCx V Q}

/-- A step of the code that is on top of the stack. -/
theorem step_user {f : Frame V} {rest : List (Frame V)} (hk : s.stack = f :: rest) (hf : f.isUser = true)
    (op : Op V) : s.step (.user op) = s.userOp op := by
  simp [step, hk, hf]

/-- The three calls, one after the other. -/
theorem yieldNow_run (hr : Reachable b s) {caller : NodeId} {rest : List (Frame V)} {id : Id}
    (hk : s.stack = .poll caller :: rest) (hp : s.ex.polling = some id) {loc : Loc} (hs : s.ts.sleeps loc = none) :
    ∃ ts, Machine.run step s (SimRuntime.yieldNow s loc (.task id)) = .ok { s with ts := ts } ∧ ts.now = s.ts.now ∧
      ts.log = s.ts.log ++ [.new loc s.ts.now, .poll loc (.task id) (some s.ts.now), .drop loc] := by
  have hB := hr.base
  have hc : s.cell = .free := by
    have hS := hB.shape
    rw [hk] at hS
    generalize s.cell = c at hS ⊢
    generalize s.ex.running.isSome = r at hS
    cases hS with
    | free h => rfl
  have hknows : s.knows id = true := by
    have hF := hB.frames
    rw [hk] at hF
    simpa [knows] using (hF.1 id hp).1
  have hnow : clockGettime s.time = s.ts.now := hr.coherent.clockGettime
  -- the three states passed through
  let s₁ : SimCx V Q := { s with ts := s.ts.newSleep loc s.ts.now }
  let s₂ : SimCx V Q :=
    { s₁ with ts := (s₁.ts.setState loc s.ts.now .taken).note (.poll loc (.task id) (some s.ts.now)) }
  have hs₁ : s₁.ts.sleeps loc = some ⟨s.ts.now, .init s.ts.now⟩ := by simp [s₁, TimeScheduler.newSleep]
  have h₁ : s.step (.user (.newSleep loc (clockGettime s.time))) = .ok s₁ := by
    rw [step_user hk rfl, hnow]
    simp [userOp, hs, s₁]
  have h₂ : s₁.step (.user (.pollSleep loc (.task id))) = .ok s₂ := by
    rw [step_user (s := s₁) hk rfl]
    have hknows₁ : s₁.knows id = true := hknows
    simp only [userOp, hknows₁, if_true]
    exact pollSleep_init_late hs₁ hc le_rfl
  have h₃ : s₂.step (.user (.dropSleep loc)) = .ok { s₂ with ts := s₂.ts.dropSleep loc } := by
    rw [step_user (s := s₂) hk rfl]
    simp [userOp, s₂, s₁, borrow, hc, bind, Except.bind, pure, Except.pure]
  refine ⟨s₂.ts.dropSleep loc, ?_, rfl, ?_⟩
  · exact Machine.run_cons.mpr ⟨_, h₁, Machine.run_cons.mpr ⟨_, h₂, Machine.run_single.mpr h₃⟩⟩
  · simp [s₂, s₁, TimeScheduler.dropSleep, TimeScheduler.newSleep]

/-- **`yield_now` gives way exactly when no task is ready.**  In every reachable state the task that is polled
awaits `yield_now()` without leaving its poll: the future is ready at its first poll, nothing else has run,
and the time is the same.  So the tasks that were ready have been polled before it goes on if and only if
there were none. -/
theorem yield_gives_way_iff (hr : Reachable b s) {caller : NodeId} {rest : List (Frame V)} {id : Id}
    (hk : s.stack = .poll caller :: rest) (hp : s.ex.polling = some id) {loc : Loc} (hs : s.ts.sleeps loc = none)
    {ls : List (Label V)} (hls : ls ∈ yields s loc (.task id)) :
    ∃ s', Machine.run step s ls = .ok s' ∧ s.ReadyAtOnce s' loc (.task id) ∧
      s'.time = s.time ∧ s'.ts.now = s.ts.now ∧ s'.events = s.events ∧
      (s.GaveWay s' ↔ ∀ j ∈ s.ex.readyQueue, s.ex.state j ≠ .ready) := by
  obtain rfl : ls = SimRuntime.yieldNow s loc (.task id) := by
    simpa [yields, Spawner.yieldNow, Spawner.yieldNowLocal] using hls
  obtain ⟨ts, hrun, hnow, hlog⟩ := yieldNow_run hr hk hp hs
  refine ⟨_, hrun, hlog, rfl, hnow, rfl, ?_, ?_⟩
  · intro h j hj hready
    obtain ⟨os, hos, hpolled⟩ := h j hj hready
    have hnil : os = [] := List.self_eq_append_right.mp hos
    rw [hnil, hready] at hpolled
    simp at hpolled
  · intro h j hj hready
    exact absurd hready (h j hj)

/-- The root is polled with no other task ready. -/
def aloneRun : List (Label ℕ) := [.user (.done none), .run []]

theorem yield_gives_way_iff_alone : ∃ s s' : ArraySim, Machine.run step (install epoch) aloneRun = .ok s ∧
    Machine.run step s (SimRuntime.yieldNow s 0 (.task 1)) = .ok s' ∧ s.GaveWay s' := by
  obtain ⟨s, hs, hq⟩ : ∃ s : ArraySim, Machine.run step (install epoch) aloneRun = .ok s ∧
      (s.stack, s.ex.polling, s.ts.sleeps 0, s.ex.readyQueue) = ([.poll 0, .loop], some 1, none, []) :=
    Machine.exists_of_run rfl
  simp only [Prod.mk.injEq] at hq
  obtain ⟨hk, hp, hsl, hnone⟩ := hq
  obtain ⟨s', hrun, -, -, -, -, hiff⟩ := yield_gives_way_iff ⟨_, hs⟩ hk hp hsl (List.mem_cons_self ..)
  exact ⟨s, s', hs, hrun, hiff.mpr (by simp [hnone])⟩

/-- The root spawns a task and yields: it goes on before that task is polled. -/
def yieldRun : List (Label ℕ) := aloneRun ++ [.user (.spawn 0)]

theorem yield_keeps_running : ∃ s s' : ArraySim, Machine.run step (install epoch) yieldRun = .ok s ∧
    Machine.run step s (SimRuntime.yieldNow s 0 (.task 1)) = .ok s' ∧ s.ReadyAtOnce s' 0 (.task 1) ∧
    ¬ s.GaveWay s' := by
  obtain ⟨s, hs, hq⟩ : ∃ s : ArraySim, Machine.run step (install epoch) yieldRun = .ok s ∧
      (s.stack, s.ex.polling, s.ts.sleeps 0, s.ex.readyQueue, s.ex.state 2) =
        ([.poll 0, .loop], some 1, none, [2], .ready) :=
    Machine.exists_of_run rfl
  simp only [Prod.mk.injEq] at hq
  obtain ⟨hk, hp, hsl, hqueue, hready⟩ := hq
  obtain ⟨ts, hrun, -, hlog⟩ := yieldNow_run ⟨_, hs⟩ hk hp hsl
  refine ⟨s, _, hs, hrun, hlog, fun h => ?_⟩
  obtain ⟨os, hos, hpolled⟩ := h 2 (by simp [hqueue]) hready
  have hnil : os = [] := List.self_eq_append_right.mp hos
  rw [hnil] at hpolled
  simp [hready] at hpolled

end SimCx

end Refault
