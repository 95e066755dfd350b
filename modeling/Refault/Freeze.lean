import Refault.ClockCoherence
import Refault.Shutdown

/-!
# Refault.Freeze — what goes on after `stop_simulation`

After the stop no poll begins.  But the loop takes the stop flag and an empty queue for the same thing and
goes on to advance the time, if a `Sleep` is registered: one that is owned by no task, so that no abort has
dropped it.
-/

namespace Refault

namespace SimCx

variable {V Q : Type} [KeyedQueue Q Loc Instant] {b : SimBuilder} {s s' : SimCx V Q} {l : Label V}

/-- The time never goes back. -/
theorem Next.time_le (h : Next s l s') : s.time.toNanos ≤ s'.time.toNanos := by
  rcases h.clock with ⟨ht, -⟩ | ⟨dt, hadv⟩
  · rw [ht]
  · rw [hadv.time]
    exact Nat.le_add_right _ _

theorem Base.time_le {m : SimCx V Q} (hB : s.Base) (h : Machine.Steps step s m) :
    s.time.toNanos ≤ m.time.toNanos :=
  h.inv_of (J := SimCx.Base) (I := fun m => s.time.toNanos ≤ m.time.toNanos) (fun _ _ _ => step_base)
    (fun _ _ _ hB hle hst => hle.trans (step_next hB hst).time_le) hB (le_refl _)

/-- At the loop, after the stop, a registered `Sleep` makes the time advance. -/
theorem step_stopped_loop (hB : s.Base) (hf : s.ex.finalStopped = true) {rest : List (Frame V)}
    (hk : s.stack = .loop :: rest) {loc : Loc} {t : Instant} (ht : KeyedQueue.get s.ts.upcomingEvents loc = some t)
    (h : s.step l = .ok s') : s.time.toNanos < s'.time.toNanos := by
  have hn := step_next hB h
  rcases hn.clock with ⟨-, hnow, -⟩ | ⟨dt, hadv⟩
  · exfalso
    obtain ⟨order, -, h⟩ := step_runtime h hk rfl
    simp only [runtime, hk] at h
    obtain ⟨-, h⟩ := borrow_bind.mp h
    rw [if_pos hf] at h
    unfold idle at h
    obtain ⟨⟨loc', next⟩, hp⟩ := KeyedQueue.peek_isSome ht
    rw [hp] at h
    dsimp only at h
    split at h
    · cases h
    · cases h
      -- the least deadline is in the future
      have hset := hB.settled (by
        have hS := hB.shape
        rw [hk] at hS ⊢
        obtain ⟨-, -, rfl⟩ := hS.loop_eq
        simp)
      have hlt := hset loc' next (KeyedQueue.get_of_peek _ _ _ hp)
      have hnow' : next = s.ts.now := hnow
      rw [hnow'] at hlt
      exact lt_irrefl _ hlt
  · rw [hadv.time]
    exact Nat.lt_add_of_pos_right (hadv.nanos hB).1

/-- After the stop no poll begins. -/
theorem Reachable.no_poll (hr : Reachable b s) (hf : s.ex.finalStopped = true) (h : s.step l = .ok s') (id : Id) :
    polls id s'.ex.log = polls id s.ex.log := by
  by_contra hne
  obtain ⟨⟨⟨rest, hk⟩, hs⟩, -⟩ := (step_next hr.base h).poll_frame hr.base hne
  have hl := hr.stopped_dead hf (hr.quiescent_loop hk) id
  rw [hs] at hl
  cases hl

/-- The loop does not find a registered `Sleep`. -/
def NoSleep (s : SimCx V Q) (_ : Label V) : Prop :=
  (∃ rest, s.stack = .loop :: rest) → ∀ loc, KeyedQueue.get s.ts.upcomingEvents loc = none

/-- **A stop freezes the simulation exactly when it leaves no registered `Sleep`.**  In a run after
`stop_simulation` was called no task is polled, neither clock moves, nothing is emitted for time and the
reported time is that of the stop, iff there is no registered `Sleep` each time the loop has the control. -/
theorem stop_freezes_iff {m : SimCx V Q} {ls : List (Label V)} (hr : Reachable b s) (hf : s.ex.finalStopped = true)
    (hrun : Machine.run step s ls = .ok m) :
    ((∀ id, polls id m.ex.log = polls id s.ex.log) ∧ m.time = s.time ∧ m.ts.now = s.ts.now ∧
      advances m.events = advances s.events ∧ ∀ time, m.stack = [.finished time] → time = s.time) ↔
    Machine.Along step NoSleep s ls := by
  constructor
  · rintro ⟨-, htime, -⟩
    refine Machine.along_iff.mpr ?_
    rintro ls₁ l ls₂ m₁ rfl hm ⟨rest, hk⟩ loc
    obtain ⟨m₀, h1, h2⟩ := Machine.run_append.mp hrun
    obtain rfl : m₀ = m₁ := Except.ok.inj (h1.symm.trans hm)
    obtain ⟨m₂, hst, h3⟩ := Machine.run_cons.mp h2
    have hr₁ : Reachable b m₀ := hr.trans ⟨ls₁, h1⟩
    have hf₁ : m₀.ex.finalStopped = true :=
      Machine.Steps.inv_of (J := SimCx.Base) (I := fun m => m.ex.finalStopped = true)
      (fun _ _ _ => step_base) (fun _ _ _ hB hf hst => (step_next hB hst).finalStopped hB hf) ⟨ls₁, h1⟩ hr.base hf
    cases hg : KeyedQueue.get m₀.ts.upcomingEvents loc with
    | none => rfl
    | some t =>
      have h4 := step_stopped_loop hr₁.base hf₁ hk hg hst
      have h5 := hr.base.time_le ⟨ls₁, h1⟩
      have h6 := (step_base hr₁.base hst).time_le ⟨ls₂, h3⟩
      rw [htime] at h6
      omega
  · intro hA
    have key := hA.inv (I := fun m => Reachable b m ∧ m.ex.finalStopped = true ∧
      (∀ id, polls id m.ex.log = polls id s.ex.log) ∧ m.time = s.time ∧ m.ts.now = s.ts.now ∧
        advances m.events = advances s.events) ?_ hrun ⟨hr, hf, fun _ => rfl, rfl, rfl, rfl⟩
    · obtain ⟨hrm, -, hp, ht, hn, he⟩ := key
      exact ⟨hp, ht, hn, he, fun time hk => (hrm.coherent.ended time (Or.inr (by rw [hk]; simp))).trans ht⟩
    · rintro m l m' ⟨hrm, hfm, hp, ht, hn, he⟩ hno hst
      have hnext := step_next hrm.base hst
      refine ⟨hrm.tail hst, hnext.finalStopped hrm.base hfm, fun id => (hrm.no_poll hfm hst id).trans (hp id), ?_⟩
      rcases hnext.clock with ⟨h1, h2, h3⟩ | ⟨dt, hadv⟩
      · exact ⟨h1.trans ht, h2.trans hn, h3.trans he⟩
      · obtain ⟨rest, hk, -⟩ := hadv.stack
        obtain ⟨⟨loc, hloc⟩, -⟩ := hadv.least
        rw [TimeScheduler.due, hno ⟨rest, hk⟩ loc] at hloc
        cases hloc

/-- A `Sleep` that a simulator owns is polled before the root future, which returns at once. -/
def ownedBySimulatorRun : List (Label ℕ) :=
  [.user (.addSimulator 0), .user (.newSleep 0 fiveSeconds), .user (.pollSleep 0 (.custom 0)),
    .user (.done none), .run [], .user (.done (some 7)), .run [1], .run [], .run [], .run [],
    .user (.done none), .run [], .run [], .run [], .user (.done none)]

/-- After the stop, at the loop, the time moves on by five seconds. -/
theorem stop_advances_simulator : ∃ s s' :
    ArraySim, Reachable epoch s ∧ s.ex.finalStopped = true ∧ s.stack = [.loop] ∧
    s.ret = some 7 ∧ s.step (.run []) = .ok s' ∧ s.time.secs = 0 ∧ s'.time.secs = 5 ∧
    (advances s'.events).length = 1 := by
  obtain ⟨s', hs', hq'⟩ : ∃ s' : ArraySim, Machine.run step (install epoch)
      (ownedBySimulatorRun ++ [.run []]) = .ok s' ∧
      (s'.time.secs, (advances s'.events).length) = (5, 1) := Machine.exists_of_run (by decide +kernel)
  obtain ⟨s, hs, hst⟩ := Machine.run_append.mp hs'
  obtain ⟨s₀, hs₀, hq⟩ : ∃ s : ArraySim, Machine.run step (install epoch) ownedBySimulatorRun = .ok s ∧
      (s.ex.finalStopped, s.stack, s.ret, s.time.secs) = (true, [.loop], some 7, 0) :=
    Machine.exists_of_run (by decide +kernel)
  obtain rfl : s₀ = s := Except.ok.inj (hs₀.symm.trans hs)
  simp only [Prod.mk.injEq] at hq hq'
  exact ⟨s₀, s', ⟨_, hs⟩, hq.1, hq.2.1, hq.2.2.1, Machine.run_single.mp hst, hq.2.2.2, hq'⟩

/-- The root task returns at once, with no `Sleep` anywhere. -/
def rootStopRun : List (Label ℕ) := [.user (.done none), .run [], .user (.done (some 7))]

/-- The stop it makes, the end of the loop, and the teardown. -/
def teardownRun : List (Label ℕ) :=
  [.run [1], .run [], .run [], .run [], .run [], .run [], .user (.done none), .run [], .run [], .run [],
    .run [], .run []]

theorem stop_freezes_iff_root : ∃ s m : ArraySim, Machine.run step (install epoch) rootStopRun = .ok s ∧
    Machine.run step s teardownRun = .ok m ∧ m.stack = [.finished s.time] ∧
    Machine.Along step NoSleep s teardownRun := by
  obtain ⟨m, hm, hqm⟩ : ∃ m : ArraySim, Machine.run step (install epoch) (rootStopRun ++ teardownRun) = .ok m ∧
      (m.stack, m.time, m.ts.now, advances m.events, m.ex.log) = ([.finished epoch.simulationStartTime],
        epoch.simulationStartTime, clockGettime epoch.simulationStartTime, [],
          [.spawn 1 0, .wake 1, .poll 1, .rootReady 7,
          .stop 0, .abort 1, .ret 1 (some 7), .drop 1 true, .exhausted]) :=
    Machine.exists_of_run rfl
  obtain ⟨s, hs, hrun⟩ := Machine.run_append.mp hm
  obtain ⟨s₀, hs₀, hq⟩ : ∃ s : ArraySim, Machine.run step (install epoch) rootStopRun = .ok s ∧
      (s.ex.finalStopped, s.time, s.ts.now, advances s.events, s.ex.log) = (true, epoch.simulationStartTime,
        clockGettime epoch.simulationStartTime, [], [.spawn 1 0, .wake 1, .poll 1, .rootReady 7]) :=
    Machine.exists_of_run rfl
  obtain rfl : s₀ = s := Except.ok.inj (hs₀.symm.trans hs)
  simp only [Prod.mk.injEq] at hq hqm
  obtain ⟨hf, htime, hnow, hadv, hlog⟩ := hq
  obtain ⟨hk, htime', hnow', hadv', hlog'⟩ := hqm
  refine ⟨s₀, m, hs, hrun, hk.trans (by rw [htime]),
    (stop_freezes_iff ⟨_, hs⟩ hf hrun).mp ⟨fun id => ?_, ?_, ?_, ?_, ?_⟩⟩
  · have hsplit : m.ex.log = s₀.ex.log ++ [.stop 0, .abort 1, .ret 1 (some 7), .drop 1 true, .exhausted] := by
      rw [hlog, hlog']
      rfl
    rw [hsplit, polls_append]
    rfl
  · exact htime'.trans htime.symm
  · exact hnow'.trans hnow.symm
  · exact hadv'.trans hadv.symm
  · intro time hk'
    rw [hk] at hk'
    cases hk'
    exact htime.symm

end SimCx

end Refault
