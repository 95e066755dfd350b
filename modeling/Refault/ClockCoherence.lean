import Refault.Calls

/-!
# Refault.ClockCoherence — the two clocks

`SimCxu.time` counts from the epoch, `TimeScheduler.now` is the `Instant` that `clock_gettime` gave at the
start.  An advance changes both, by an addition and by an assignment.  They agree in every reachable state
(`Coherent`), because no registered deadline is in the past and every deadline is a timespec; so the addition
does not overflow and the cast in `clock_gettime` loses nothing.
-/

namespace Refault

/-- The `TimeAdvanced` events. -/
def advances (events : List Event) : List Duration :=
  events.filterMap fun | .timeAdvanced dt => some dt | _ => none

/-- The nanoseconds of all of them. -/
def advanced (events : List Event) : ℕ := ((advances events).map Duration.toNanos).sum

@[simp] theorem advances_append (events events' : List Event) :
    advances (events ++ events') = advances events ++ advances events' := List.filterMap_append

theorem advanced_append (events events' : List Event) :
    advanced (events ++ events') = advanced events + advanced events' := by
  simp [advanced]

theorem advanced_timeAdvanced (dt : Duration) : advanced [.timeAdvanced dt] = dt.toNanos := by
  simp [advanced, advances]

namespace TimeScheduler

variable {Q : Type} [KeyedQueue Q Loc Instant] {ts ts' : TimeScheduler Q}

/-- The least registered deadline. -/
def Least (ts : TimeScheduler Q) (next : Instant) : Prop :=
  (∃ loc, ts.due loc = some next) ∧ ∀ loc t, ts.due loc = some t → next ≤ t

/-- The clock moves in an advance only, to the least registered deadline. -/
theorem Act.now (h : Act ts ts') : ts'.now = ts.now ∨ ts.Least ts'.now := by
  cases h with
  | advance loc t hp =>
    exact Or.inr ⟨⟨loc, KeyedQueue.get_of_peek _ _ _ hp⟩,
      fun loc' t' h => KeyedQueue.le_of_peek _ _ _ hp loc' t' h⟩
  | _ => exact Or.inl rfl

end TimeScheduler

namespace SimCx

variable {V Q : Type} [KeyedQueue Q Loc Instant] {b : SimBuilder} {s s' : SimCx V Q} {l : Label V}

/-- What an advance does to the clocks. -/
structure Advance (s s' : SimCx V Q) (dt : Duration) : Prop where
  cell : s.cell = .free
  stack : ∃ rest, s.stack = .loop :: rest ∧ s'.stack = .waking :: .loop :: rest
  queue : s.ex.finalStopped = true ∨ s.ex.readyQueue = []
  least : s.ts.Least s'.ts.now
  dt_eq : dt = s'.ts.now.durationSince s.ts.now
  time : s'.time.toNanos = s.time.toNanos + dt.toNanos
  events : s'.events = s.events ++ [.timeAdvanced dt]
  ts : s'.ts = s.ts.advanceTo s'.ts.now

/-- A step leaves the clocks alone, or it is an advance. -/
theorem Next.clock (h : Next s l s') :
    (s'.time = s.time ∧ s'.ts.now = s.ts.now ∧ advances s'.events = advances s.events) ∨
    ∃ dt, s.Advance s' dt := by
  cases h with
  | pollSleep loc sl w ts hu hs hc hw h => exact Or.inl ⟨rfl, TimeScheduler.pollState_now h, rfl⟩
  | advance order rest loc next time hk hc hq hp ht =>
    refine Or.inr ⟨_, hc, ⟨rest, hk, rfl⟩, hq, ?_, rfl, Duration.checkedAdd_eq_some.mp ht, rfl, rfl⟩
    exact ⟨⟨loc, KeyedQueue.get_of_peek _ _ _ hp⟩, fun loc' t' h => KeyedQueue.le_of_peek _ _ _ hp loc' t' h⟩
  | spawn | createNode | doneInit | poll => exact Or.inl ⟨rfl, rfl, by simp [advances]⟩
  | _ => exact Or.inl ⟨rfl, rfl, rfl⟩

theorem Next.startTime (h : Next s l s') : s'.startTime = s.startTime := by cases h <;> rfl

/-- The teardown is past `stop_simulation`, with `time` as read at its start. -/
def EndFrame (time : Duration) (s : SimCx V Q) : Prop := .dropSims time ∈ s.stack ∨ .finished time ∈ s.stack

/-- The frames of the teardown come from `destroy`. -/
theorem Next.endFrame (h : Next s l s') (hB : s.Base) {time : Duration} (ht : s'.EndFrame time) :
    (s.EndFrame time ∧ s'.time = s.time) ∨ (s'.time = time ∧ s'.ex.finalStopped = true) := by
  have hS := hB.shape
  -- an advance starts at the loop
  have htime : s.EndFrame time → s'.time = s.time := by
    intro hE
    rcases h.clock with ⟨h1, -⟩ | ⟨dt, hadv⟩
    · exact h1
    · obtain ⟨rest, hk, -⟩ := hadv.stack
      rw [hk] at hS
      obtain ⟨-, -, rfl⟩ := hS.loop_eq
      simp [EndFrame, hk] at hE
  have hstay : s.EndFrame time → (s.EndFrame time ∧ s'.time = s.time) ∨
      (s'.time = time ∧ s'.ex.finalStopped = true) :=
    fun hE => Or.inl ⟨hE, htime hE⟩
  rcases ht with ht | ht <;> rcases h.mem_stack ht with hm | hp
  · exact hstay (Or.inl hm)
  · cases hp with
    | dropSims hk ht' hf => exact Or.inr ⟨ht', hf⟩
  · exact hstay (Or.inr hm)
  · cases hp with
    | finished time hk ht' => exact hstay (Or.inl hk)

/-- Between the waking loop and the next one no registered deadline is reached. -/
theorem Advance.pos {dt : Duration} (h : s.Advance s' dt) (hB : s.Base) : s.ts.now < s'.ts.now := by
  obtain ⟨rest, hk, -⟩ := h.stack
  have hS := hB.shape
  rw [hk] at hS
  obtain ⟨-, -, rfl⟩ := hS.loop_eq
  have hset : s.ts.Settled := hB.settled (by rw [hk]; simp)
  obtain ⟨⟨loc, hloc⟩, -⟩ := h.least
  exact hset loc _ hloc

/-- The clocks agree, and both count what the events say. -/
structure Coherent (b : SimBuilder) (s : SimCx V Q) : Prop where
  now : (s.time.toNanos : ℤ) = s.ts.now.toNanos
  sum : s.time.toNanos = b.simulationStartTime.toNanos + advanced s.events
  ended : ∀ time, s.EndFrame time → time = s.time

section Coherent

omit [KeyedQueue Q Loc Instant]

theorem Coherent.clockGettime (hC : s.Coherent b) : clockGettime s.time = s.ts.now := by
  refine Timespec.toNanos_injective ?_
  rw [SimCx.clockGettime, Timespec.ofDuration_toNanos (Timespec.secs_lt_of_toNanos hC.now)]
  exact hC.now

/-- The addition in an advance to any `Instant` that is not in the past. -/
theorem Coherent.checkedAdd (hC : s.Coherent b) {next : Instant} (hle : s.ts.now ≤ next) :
    ∃ time, s.time.checkedAdd (next.durationSince s.ts.now) = some time ∧ (time.toNanos : ℤ) = next.toNanos := by
  have hsum : ((s.time.toNanos + (next.durationSince s.ts.now).toNanos : ℕ) : ℤ) = next.toNanos := by
    rw [Nat.cast_add, Timespec.durationSince_toNanos hle, hC.now]
    exact add_sub_cancel _ _
  cases h : s.time.checkedAdd (next.durationSince s.ts.now) with
  | some time => exact ⟨time, rfl, by rw [Duration.checkedAdd_eq_some.mp h]; exact hsum⟩
  | none =>
    -- the sum is `next`, which fits
    have hbig := Duration.checkedAdd_eq_none.mp h
    have hlt := next.toNanos_lt
    omega

end Coherent

theorem Advance.nanos {dt : Duration} (h : s.Advance s' dt) (hB : s.Base) :
    0 < dt.toNanos ∧ s'.ts.now.toNanos = s.ts.now.toNanos + dt.toNanos := by
  have hpos := h.pos hB
  have hdt := Timespec.durationSince_toNanos hpos.le
  rw [← h.dt_eq] at hdt
  rw [Timespec.lt_iff] at hpos
  omega

theorem Next.coherent (h : Next s l s') (hB : s.Base) (hC : s.Coherent b) : s'.Coherent b := by
  have hE : ∀ time, s'.EndFrame time → time = s'.time := fun time ht => by
    rcases h.endFrame hB ht with ⟨h1, h2⟩ | ⟨h1, -⟩
    · exact (hC.ended time h1).trans h2.symm
    · exact h1.symm
  rcases h.clock with ⟨ht, hn, he⟩ | ⟨dt, hadv⟩
  · exact ⟨by rw [ht, hn]; exact hC.now, by rw [ht, advanced, he]; exact hC.sum, hE⟩
  · have hnow := hC.now
    have hsum := hC.sum
    have ht := hadv.time
    obtain ⟨-, hn⟩ := hadv.nanos hB
    refine ⟨by omega, ?_, hE⟩
    rw [hadv.events, advanced_append, advanced_timeAdvanced]
    omega

theorem Reachable.coherent (hr : Reachable b s) : s.Coherent b := by
  refine hr.invariant (I := fun s => s.Coherent b) ?_ fun _ _ _ hB hC h => h.coherent hB hC
  refine ⟨?_, rfl, fun time ht => by simp [EndFrame, install] at ht⟩
  exact (Timespec.ofDuration_toNanos b.secs_lt).symm

/-- What `SimBuilder::run` reports as `time_elapsed`; `none` is the panic of the subtraction. -/
def timeElapsed (b : SimBuilder) (time : Duration) : Option Duration := time.checkedSub b.simulationStartTime

/-- **Clock coherence**, for every start time at or after the epoch and in every reachable state.  Both clocks
have moved by the same span, and `clock_gettime` reads `TimeScheduler.now`, with no loss in its cast.  An
advance to any `Instant` that is not in the past can add without overflow and reads back as that `Instant`.  A
step that moves a clock moves both by the same positive span, and emits it.  The reported time is the sum of
what was emitted, so equal events give equal times. -/
theorem clock_coherence (hr : Reachable b s) :
    ((s.time.toNanos : ℤ) - b.simulationStartTime.toNanos =
      s.ts.now.toNanos - (clockGettime b.simulationStartTime).toNanos) ∧
    clockGettime s.time = s.ts.now ∧ (clockGettime s.time).secs = s.time.secs ∧
    (∀ next, s.ts.now ≤ next → ∃ time, s.time.checkedAdd (next.durationSince s.ts.now) = some time ∧
      clockGettime time = next) ∧
    (∀ l s', s.step l = .ok s' → (s'.time = s.time ∧ s'.ts.now = s.ts.now) ∨
      ∃ dt, 0 < dt.toNanos ∧ s'.time.toNanos = s.time.toNanos + dt.toNanos ∧
        s'.ts.now.toNanos = s.ts.now.toNanos + dt.toNanos ∧ s'.events = s.events ++ [.timeAdvanced dt]) ∧
    (∀ time, s.stack = [.finished time] → ∃ d, timeElapsed b time = some d ∧ d.toNanos = advanced s.events) ∧
    ∀ (b' : SimBuilder) (s' : SimCx V Q) (time time' : Duration), Reachable b' s' → s'.events = s.events →
      s.stack = [.finished time] → s'.stack = [.finished time'] → timeElapsed b' time' = timeElapsed b time := by
  have hC := hr.coherent
  have hcast : ∀ {d : Duration} {t : Instant}, (d.toNanos : ℤ) = t.toNanos → clockGettime d = t := fun h => by
    refine Timespec.toNanos_injective ?_
    rw [SimCx.clockGettime, Timespec.ofDuration_toNanos (Timespec.secs_lt_of_toNanos h)]
    exact h
  have helapsed : ∀ {b : SimBuilder} {s : SimCx V Q} (_ : Reachable b s) (time : Duration),
      s.stack = [.finished time] → ∃ d, timeElapsed b time = some d ∧ d.toNanos = advanced s.events := by
    intro b s hr time hk
    have hC := hr.coherent
    have ht : time = s.time := hC.ended time (Or.inr (by rw [hk]; simp))
    have hlt : advanced s.events < 2 ^ 64 * nanosPerSec := by
      have h1 := hC.sum
      have h2 := s.time.toNanos_lt
      omega
    refine ⟨.ofNanos _ hlt, Duration.checkedSub_eq_some ?_, Duration.toNanos_ofNanos _ hlt⟩
    rw [ht, hC.sum, Duration.toNanos_ofNanos]
    exact Nat.add_comm _ _
  refine ⟨?_, hC.clockGettime, ?_, fun next hle => ?_, fun l s' h => ?_, helapsed hr, ?_⟩
  · rw [SimCx.clockGettime, Timespec.ofDuration_toNanos b.secs_lt, hC.now]
  · exact Timespec.ofDuration_secs (Timespec.secs_lt_of_toNanos hC.now)
  · obtain ⟨time, h1, h2⟩ := hC.checkedAdd hle
    exact ⟨time, h1, hcast h2⟩
  · rcases (step_next hr.base h).clock with ⟨ht, hn, -⟩ | ⟨dt, hadv⟩
    · exact Or.inl ⟨ht, hn⟩
    · obtain ⟨hpos, hn⟩ := hadv.nanos hr.base
      exact Or.inr ⟨dt, hpos, hadv.time, hn, hadv.events⟩
  · intro b' s' time time' hr' hev hk hk'
    obtain ⟨d, h1, h2⟩ := helapsed hr time hk
    obtain ⟨d', h1', h2'⟩ := helapsed hr' time' hk'
    rw [h1, h1', Option.some.injEq]
    exact Duration.toNanos_injective (by rw [h2, h2', hev])

/-- The root task sleeps until five seconds after the epoch. -/
def advanceRun : List (Label ℕ) :=
  [.user (.done none), .run [], .user (.newSleep 0 fiveSeconds), .user (.pollSleep 0 (.task 1)),
    .user (.done none), .run []]

theorem clock_coherence_advance : ∃ s : ArraySim, Machine.run step (install epoch) advanceRun = .ok s ∧
    s.ts.now.secs = 5 ∧ clockGettime s.time = s.ts.now := by
  obtain ⟨s, hs, hq⟩ : ∃ s : ArraySim, Machine.run step (install epoch) advanceRun = .ok s ∧ s.ts.now.secs = 5 :=
    Machine.exists_of_run (by decide +kernel)
  exact ⟨s, hs, hq, (clock_coherence ⟨_, hs⟩).2.1⟩

end SimCx

end Refault
