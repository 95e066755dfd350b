import Refault.ClockCoherence
import Refault.Panics

/-!
# Refault.SleepOnTime — sleepers wake exactly on time

The wakes of a `Sleep` are read off the scheduler's log: each finds the `Sleep` alive and calls the waker of
its last poll (`Woken`).  The batch of wakes after an advance is followed from the advance to the end of its
loop (`Batch`): every `Sleep` that was due then is woken once, all others stay registered, and nothing is
added.
-/

namespace Refault

/-- The `Sleep` at `loc` after the log, if it is alive: the waker of its last poll, if it was polled. -/
def polledBy (loc : Loc) (log : List SleepObs) : Option (Option Waker) :=
  log.foldl (fun a o => match o with
    | .new l _ => if l = loc then some none else a
    | .poll l w _ => if l = loc then some (some w) else a
    | .drop l => if l = loc then none else a
    | .wake _ _ => a) none

@[simp] theorem polledBy_note (loc : Loc) (log : List SleepObs) (o : SleepObs) : polledBy loc (log ++ [o]) =
    match o with
    | .new l _ => if l = loc then some none else polledBy loc log
    | .poll l w _ => if l = loc then some (some w) else polledBy loc log
    | .drop l => if l = loc then none else polledBy loc log
    | .wake _ _ => polledBy loc log := by
  unfold polledBy
  rw [List.foldl_append]
  cases o <;> rfl

/-- The wakers called for the `Sleep` at `loc`. -/
def wakes (loc : Loc) (log : List SleepObs) : List Waker :=
  log.filterMap fun | .wake l w => if l = loc then some w else none | _ => none

@[simp] theorem wakes_nil (loc : Loc) : wakes loc [] = [] := rfl

@[simp] theorem wakes_append (loc : Loc) (log log' : List SleepObs) :
    wakes loc (log ++ log') = wakes loc log ++ wakes loc log' := List.filterMap_append

namespace TimeScheduler

variable {Q : Type} [KeyedQueue Q Loc Instant] {ts ts' ts₀ : TimeScheduler Q}

/-- Every wake in the log found its `Sleep` alive and called the waker of its last poll, and so will the next. -/
structure Woken (ts : TimeScheduler Q) : Prop where
  alive : ∀ loc, ts.sleeps loc = none → polledBy loc ts.log = none
  waiting : ∀ loc d w, ts.sleeps loc = some ⟨d, .waiting w⟩ → polledBy loc ts.log = some (some w)
  wakes : ∀ pre loc w post, ts.log = pre ++ .wake loc w :: post → polledBy loc pre = some (some w)

theorem woken_new (now : Instant) : (TimeScheduler.new now : TimeScheduler Q).Woken where
  alive loc h := rfl
  waiting loc d w h := by cases h
  wakes pre loc w post h := by simp [TimeScheduler.new] at h

omit [KeyedQueue Q Loc Instant] in
/-- One more entry. -/
theorem Woken.note_wakes (hW : ts.Woken) {o : SleepObs}
    (ho : ∀ loc w, o = .wake loc w → polledBy loc ts.log = some (some w))
    (hl : ts'.log = ts.log ++ [o]) (pre : List SleepObs) (loc : Loc) (w : Waker) (post : List SleepObs)
    (h : ts'.log = pre ++ .wake loc w :: post) : polledBy loc pre = some (some w) := by
  rw [hl] at h
  rcases List.eq_nil_or_concat post with rfl | ⟨post', o', rfl⟩
  · obtain ⟨rfl, ho'⟩ := List.append_inj' h rfl
    exact ho loc w (List.singleton_inj.mp ho')
  · rw [List.concat_eq_append, ← List.cons_append, ← List.append_assoc] at h
    obtain ⟨h1, -⟩ := List.append_inj' h rfl
    exact hW.wakes pre loc w post' h1

theorem Act.woken (h : Act ts ts') (hW : ts.Woken) : ts'.Woken := by
  cases h with
  | newSleep loc d hs =>
    refine ⟨fun l hl => ?_, fun l d' w hl => ?_, hW.note_wakes (o := .new loc d) (fun _ _ h => by cases h) rfl⟩
    · by_cases h : l = loc
      · subst h; simp [TimeScheduler.newSleep] at hl
      · simpa [TimeScheduler.newSleep, Ne.symm h] using hW.alive l (by simpa [TimeScheduler.newSleep, h] using hl)
    · by_cases h : l = loc
      · subst h; simp [TimeScheduler.newSleep] at hl
      · simpa [TimeScheduler.newSleep, Ne.symm h] using hW.waiting l d' w
          (by simpa [TimeScheduler.newSleep, h] using hl)
  | elapsed loc d t w hs ht | register loc d t w hs ht | repoll loc d w w' hs | ready loc d t w hs =>
    refine ⟨fun l hl => ?_, fun l d' w' hl => ?_, hW.note_wakes (o := .poll loc w _) (fun _ _ h => by cases h) rfl⟩
    · by_cases h : l = loc
      · subst h; simp at hl
      · simpa [Ne.symm h] using hW.alive l (by simpa [h] using hl)
    · by_cases h : l = loc
      · subst h; simp at hl ⊢ <;> simp [hl]
      · simpa [Ne.symm h] using hW.waiting l d' w' (by simpa [h] using hl)
  | dropSleep loc hs =>
    refine ⟨fun l hl => ?_, fun l d' w hl => ?_, hW.note_wakes (o := .drop loc) (fun _ _ h => by cases h) rfl⟩
    · by_cases h : l = loc
      · subst h; simp [TimeScheduler.dropSleep]
      · simpa [TimeScheduler.dropSleep, Ne.symm h] using hW.alive l
          (by simpa [TimeScheduler.dropSleep, h] using hl)
    · by_cases h : l = loc
      · subst h; simp [TimeScheduler.dropSleep] at hl
      · simpa [TimeScheduler.dropSleep, Ne.symm h] using
          hW.waiting l d' w (by simpa [TimeScheduler.dropSleep, h] using hl)
  | advance loc t hp => exact ⟨hW.alive, hW.waiting, hW.wakes⟩
  | wake loc t w q hp hs =>
    refine ⟨fun l hl => ?_, fun l d' w' hl => ?_, hW.note_wakes (o := .wake loc w) (fun l w' h => ?_) rfl⟩
    · by_cases h : l = loc
      · subst h; simp at hl
      · simpa using hW.alive l (by simpa [h] using hl)
    · by_cases h : l = loc
      · subst h; simp at hl
      · simpa using hW.waiting l d' w' (by simpa [h] using hl)
    · cases h
      exact hW.waiting loc t w hs

/-- The batch of wakes at `ts.now`, with the log `os` since `ts₀`: a `Sleep` due now is registered still or
has been woken once, one due later is registered, and there is no other. -/
structure Batch (ts₀ ts : TimeScheduler Q) (os : List SleepObs) : Prop where
  log : ts.log = ts₀.log ++ os
  now : ∀ loc, ts₀.due loc = some ts.now → (ts.due loc = some ts.now ∧ wakes loc os = []) ∨
    (ts.sleeps loc = some ⟨ts.now, .done ts.now⟩ ∧ ∃ w, wakes loc os = [w])
  later : ∀ loc t, ts₀.due loc = some t → t ≠ ts.now → ts.due loc = some t ∧ wakes loc os = []
  other : ∀ loc, ts₀.due loc = none → ts.due loc = none ∧ wakes loc os = []

theorem batch_advance (ts : TimeScheduler Q) (next : Instant) : Batch ts (ts.advanceTo next) [] where
  log := (List.append_nil _).symm
  now _ h := Or.inl ⟨h, rfl⟩
  later _ _ h _ := ⟨h, rfl⟩
  other _ h := ⟨h, rfl⟩

/-- Entries of the log that are no wakes, with no change of the registered deadlines. -/
theorem Batch.note {os : List SleepObs} (hb : Batch ts₀ ts os) {o : SleepObs} (hl : ts'.log = ts.log ++ [o])
    (hn : ts'.now = ts.now) (ho : ∀ loc, wakes loc [o] = []) (hd : ∀ loc, ts'.due loc = ts.due loc)
    (hs : ∀ loc t, ts.sleeps loc = some ⟨t, .done t⟩ → ts'.sleeps loc = some ⟨t, .done t⟩) :
    Batch ts₀ ts' (os ++ [o]) where
  log := by rw [hl, hb.log, List.append_assoc]
  now loc h := by
    rw [hn] at h ⊢
    rw [hd, wakes_append, ho, List.append_nil]
    exact (hb.now loc h).imp id fun h => ⟨hs _ _ h.1, h.2⟩
  later loc t h ht := by
    rw [hd, wakes_append, ho, List.append_nil]
    exact hb.later loc t h (hn ▸ ht)
  other loc h := by
    rw [hd, wakes_append, ho, List.append_nil]
    exact hb.other loc h

/-- One wake of the batch. -/
theorem Batch.wake {os : List SleepObs} (hb : Batch ts₀ ts os) (hI : ts.Inv) {loc : Loc} {t : Instant}
    {w : Waker} {q : Q}
    (hp : KeyedQueue.popIf ts.upcomingEvents (fun t => decide (t ≤ ts.now)) = some ((loc, t), q))
    (hs : ts.sleeps loc = some ⟨t, .waiting w⟩) :
    Batch ts₀ (({ ts with upcomingEvents := q }.setState loc t (.done t)).note (.wake loc w))
    (os ++ [.wake loc w]) := by
  obtain ⟨hdue, hle, hq⟩ := due_popIf hp
  obtain rfl : t = ts.now := le_antisymm hle (hI.now_le loc t hdue)
  have hother : ∀ {l : Loc}, l ≠ loc → wakes l (os ++ [.wake loc w]) = wakes l os := fun h => by
    simp [wakes, Ne.symm h]
  refine ⟨by simp [hb.log], fun l hl => ?_, fun l t hl ht => ?_, fun l hl => ?_⟩
  · by_cases h : l = loc
    · subst h
      refine Or.inr ⟨by simp, w, ?_⟩
      rcases hb.now l hl with ⟨-, h0⟩ | ⟨h0, -⟩
      · rw [wakes_append, h0]
        simp [wakes]
      · rw [hs] at h0
        cases h0
    · rw [hother h]
      refine (hb.now l hl).imp (fun h0 => ⟨?_, h0.2⟩) fun h0 => ⟨?_, h0.2⟩
      · exact (hq l).trans (by rw [if_neg h]; exact h0.1)
      · simpa [h] using h0.1
  · obtain ⟨h1, h2⟩ := hb.later l t hl ht
    have h : l ≠ loc := by
      rintro rfl
      rw [hdue] at h1
      exact ht (Option.some.inj h1).symm
    rw [hother h]
    exact ⟨(hq l).trans (by rw [if_neg h]; exact h1), h2⟩
  · obtain ⟨h1, h2⟩ := hb.other l hl
    have h : l ≠ loc := by
      rintro rfl
      rw [hdue] at h1
      cases h1
    rw [hother h]
    exact ⟨(hq l).trans (by rw [if_neg h]; exact h1), h2⟩

/-- When nothing is due any more the batch is complete. -/
theorem Batch.complete {os : List SleepObs} (hb : Batch ts₀ ts os) (hset : ts.Settled) (loc : Loc) :
    (ts₀.due loc = some ts.now → ts.sleeps loc = some ⟨ts.now, .done ts.now⟩ ∧ ∃ w, wakes loc os = [w]) ∧
    (∀ t, ts₀.due loc = some t → t ≠ ts.now → ts.due loc = some t ∧ wakes loc os = []) ∧
    (ts₀.due loc = none → wakes loc os = []) := by
  refine ⟨fun h => ?_, hb.later loc, fun h => (hb.other loc h).2⟩
  rcases hb.now loc h with ⟨h0, -⟩ | h0
  · exact absurd (hset loc _ h0) (lt_irrefl _)
  · exact h0

end TimeScheduler

namespace SimCx

variable {V Q : Type} [KeyedQueue Q Loc Instant] {b : SimBuilder} {s s' : SimCx V Q} {l : Label V}

theorem Reachable.woken (hr : Reachable b s) : s.ts.Woken := by
  refine hr.invariant (I := fun s => s.ts.Woken) (TimeScheduler.woken_new _) fun s l s' hB hW h => ?_
  rcases h.tsAct with h | h
  · rw [h]; exact hW
  · exact h.woken hW

/-- The stacks of the waking loop. -/
theorem Base.waking_stack (hB : s.Base) (hw : .waking ∈ s.stack) :
    s.cell = .borrowed ∧ (s.stack = [.waking, .loop] ∨ s.stack = [.waker, .waking, .loop]) := by
  have hS := hB.shape
  generalize s.cell = c at hS ⊢
  generalize s.ex.running.isSome = r at hS
  generalize s.stack = fs at hS hw ⊢
  cases hS with
  | free h => exact absurd rfl (h.not_borrowed hw).1
  | waking => exact ⟨rfl, Or.inl rfl⟩
  | waker => exact ⟨rfl, Or.inr rfl⟩
  | post | finished => simp at hw

/-- A step of the waking loop, or of a waker called there. -/
theorem Next.batch (h : Next s l s') (hB : s.Base) (hw : .waking ∈ s.stack) {ts₀ : TimeScheduler Q}
    {os : List SleepObs} (hb : TimeScheduler.Batch ts₀ s.ts os) :
    (s'.stack = [.loop] ∨ .waking ∈ s'.stack) ∧ s'.ts.now = s.ts.now ∧
    ∃ os', TimeScheduler.Batch ts₀ s'.ts (os ++ os') := by
  obtain ⟨hcell, hk⟩ := hB.waking_stack hw
  have hstack : s'.stack = [.loop] ∨ .waking ∈ s'.stack := by
    rcases hk with hk | hk <;> rcases h.top hk with ⟨h1, -⟩ | ⟨gs, g, h1, h2, -⟩
    · exact Or.inl h1
    · cases h2
      exact Or.inr (by rw [h1]; simp)
    · exact Or.inr (by rw [h1]; simp)
    · exact Or.inr (by rw [h1]; simp)
  refine ⟨hstack, ?_⟩
  have hsame : s'.ts = s.ts → s'.ts.now = s.ts.now ∧
      ∃ os', TimeScheduler.Batch ts₀ s'.ts (os ++ os') := fun h0 => by
    rw [h0]
    exact ⟨rfl, [], by rw [List.append_nil]; exact hb⟩
  have hfree : s.cell ≠ .free := by rw [hcell]; decide
  cases h with
  | newSleep loc d hu hs =>
    refine ⟨rfl, [.new loc d], hb.note rfl rfl (fun _ => rfl) (fun _ => rfl) fun l t hl => ?_⟩
    have hne : l ≠ loc := by rintro rfl; rw [hs] at hl; cases hl
    simpa [TimeScheduler.newSleep, hne] using hl
  | pollSleep loc sl w ts hu hs hc hwk hp =>
    refine ⟨TimeScheduler.pollState_now hp, ?_⟩
    obtain ⟨d, st⟩ := sl
    cases st with
    | init t => exact absurd (hc t rfl) hfree
    | waiting w' =>
      cases hp
      refine ⟨[.poll loc w none], hb.note rfl rfl (fun _ => rfl) (fun _ => rfl) fun l t hl => ?_⟩
      have hne : l ≠ loc := by rintro rfl; rw [hs] at hl; cases hl
      simpa [hne] using hl
    | done t =>
      cases hp
      refine ⟨[.poll loc w (some t)], hb.note rfl rfl (fun _ => rfl) (fun _ => rfl) fun l t' hl => ?_⟩
      by_cases hne : l = loc
      · subst hne
        rw [hs] at hl
        simpa using hl
      · simpa [hne] using hl
    | taken => cases hp
  | dropSleep loc hu hc hs => exact absurd hc hfree
  | advance order rest loc next time hk' hc hq hp ht => exact absurd hc hfree
  | wakeTask order rest loc t id q e hk' hp hs he => exact ⟨rfl, _, hb.wake hB.sleep hp hs⟩
  | wakeCustom order rest loc t n q hk' hp hs => exact ⟨rfl, _, hb.wake hB.sleep hp hs⟩
  | _ => exact hsame rfl

/-- **Sleepers wake exactly on time.**  In every reachable state the registered entries are the waiting
`Sleep`s, each under its own deadline, and outside the waking loop that is in the future.  Every wake of a
`Sleep` finds it alive and calls the waker of its last poll.  The time moves to the least registered deadline
only, and then the waking loop, whatever the wakers do, makes every `Sleep` due now `Done` and wakes it once,
leaves every other one registered, and wakes no other. Its `unreachable!` is not reached. -/
theorem sleepers_wake_on_time (hr : Reachable b s) :
    (∀ loc t, KeyedQueue.get s.ts.upcomingEvents loc = some t ↔ ∃ w, s.ts.sleeps loc = some ⟨t, .waiting w⟩) ∧
    (.waking ∉ s.stack → ∀ loc t, KeyedQueue.get s.ts.upcomingEvents loc = some t → s.ts.now < t) ∧
    (∀ pre loc w post, s.ts.log = pre ++ .wake loc w :: post → polledBy loc pre = some (some w)) ∧
    (∀ l, s.step l ≠ .error (.panic (.site .wakeLoop))) ∧
    ∀ l s', s.step l = .ok s' → s'.ts.now ≠ s.ts.now →
      s.ts.Least s'.ts.now ∧ ∃ base, s'.stack = .waking :: base ∧ ∀ ls m, Within base s' ls →
        Machine.run step s' ls = .ok m → m.ts.now = s'.ts.now ∧
        (¬ m.Inside base → ∃ os, m.ts.log = s.ts.log ++ os ∧
          ∀ loc, (s.ts.due loc = some m.ts.now →
              m.ts.sleeps loc = some ⟨m.ts.now, .done m.ts.now⟩ ∧ ∃ w, wakes loc os = [w]) ∧
            (∀ t, s.ts.due loc = some t → t ≠ m.ts.now → m.ts.due loc = some t ∧ wakes loc os = []) ∧
            (s.ts.due loc = none → wakes loc os = [])) := by
  have hB := hr.base
  refine ⟨hB.sleep.due_iff, hB.settled, hr.woken.wakes, fun l h => ?_, fun l s' h hne => ?_⟩
  · rcases step_site hB h with ⟨h, -⟩ | ⟨h, -⟩ <;> cases h
  · have hB' := step_base hB h
    rcases (step_next hB h).clock with ⟨-, hn, -⟩ | ⟨dt, hadv⟩
    · exact absurd hn hne
    · obtain ⟨rest, hk, hk'⟩ := hadv.stack
      have hS := hB.shape
      rw [hk] at hS
      obtain ⟨-, -, rfl⟩ := hS.loop_eq
      refine ⟨hadv.least, [.loop], hk', fun ls m hw hrun => ?_⟩
      have key := hw.inv (I := fun m => m.Base ∧ (m.stack = [.loop] ∨ .waking ∈ m.stack) ∧ m.ts.now = s'.ts.now ∧
        ∃ os, TimeScheduler.Batch s.ts m.ts os) ?_ hrun ⟨hB', Or.inr (by rw [hk']; simp), rfl, [], ?_⟩
      · obtain ⟨hBm, hstack, hnow, os, hb⟩ := key
        refine ⟨hnow, fun hin => ⟨os, hb.log, hb.complete (hBm.settled fun hwk => ?_)⟩⟩
        rcases (hBm.waking_stack hwk).2 with h0 | h0 <;> exact hin (by rw [Inside, h0]; simp)
      · rintro m l m' ⟨hBm, hstack, hnow, os, hb⟩ hin hst
        have hn := step_next hBm hst
        rcases hstack with h0 | hwk
        · rw [Inside, h0] at hin
          exact absurd hin (lt_irrefl _)
        · obtain ⟨h1, h2, os', h3⟩ := hn.batch hBm hwk hb
          exact ⟨hn.base hBm, h1, h2.trans hnow, _, h3⟩
      · rw [hadv.ts]
        exact TimeScheduler.batch_advance s.ts s'.ts.now

/-- The root's `Sleep` is registered with its deadline in the future; then the time moves there, and it is
woken. -/
theorem sleepers_wake_on_time_advance : ∃ s s' m : ArraySim,
    Machine.run step (install epoch) advanceRun.dropLast = .ok s ∧ s.step (.run []) = .ok s' ∧
      Machine.run step s' [.run [], .run []] = .ok m ∧ s.ts.now < fiveSeconds ∧
      m.ts.sleeps 0 = some ⟨fiveSeconds, .done fiveSeconds⟩ ∧ ∃ os w, m.ts.log = s.ts.log ++ os ∧
      wakes 0 os = [w] := by
  obtain ⟨m, hm, hqm⟩ : ∃ m : ArraySim, Machine.run step (install epoch)
      (advanceRun ++ [.run [], .run []]) = .ok m ∧
      (m.stack, m.ts.now) = ([.loop], fiveSeconds) := Machine.exists_of_run (by decide +kernel)
  obtain ⟨s', hs', hrun⟩ := Machine.run_append.mp hm
  obtain ⟨s, hs, hst⟩ :=
    Machine.run_append.mp (show Machine.run step _ (advanceRun.dropLast ++ [.run []]) = _ from hs')
  obtain ⟨s₀, hs₀, hq⟩ : ∃ s : ArraySim, Machine.run step (install epoch) advanceRun.dropLast = .ok s ∧
      (s.stack, s.ts.sleeps 0, s.ts.due 0, s.ts.now.secs) =
        ([.loop], some ⟨fiveSeconds, .waiting (.task 1)⟩, some fiveSeconds, 0) :=
    Machine.exists_of_run (by decide +kernel)
  obtain rfl : s₀ = s := Except.ok.inj (hs₀.symm.trans hs)
  obtain ⟨s₁, hs₁, hq₁⟩ : ∃ s : ArraySim, Machine.run step (install epoch) advanceRun = .ok s ∧
      (s.stack, s.ts.now) = ([.waking, .loop], fiveSeconds) := Machine.exists_of_run (by decide +kernel)
  obtain rfl : s₁ = s' := Except.ok.inj (hs₁.symm.trans hs')
  simp only [Prod.mk.injEq] at hq hqm hq₁
  obtain ⟨h1, h2, -, -, h5⟩ := sleepers_wake_on_time ⟨_, hs⟩
  have hst := Machine.run_single.mp hst
  have hlt : s₀.ts.now < fiveSeconds := h2 (by rw [hq.1]; simp) 0 _ ((h1 0 _).mpr ⟨_, hq.2.1⟩)
  obtain ⟨-, base, hk, hall⟩ := h5 _ _ hst (by rw [hq₁.2]; exact hlt.ne')
  obtain rfl : base = [.loop] := by
    rw [hq₁.1] at hk
    exact (List.cons.inj hk).2.symm
  have hin : Within [.loop] s₁ [.run [], .run []] := by
    have hin : s₁.Inside [.loop] := by rw [Inside, hq₁.1]; simp
    refine ⟨hin, fun k hk' => ⟨?_, fun _ _ => trivial⟩⟩
    obtain ⟨k', hk₁, hq'⟩ : ∃ k : ArraySim, Machine.run step (install epoch) (advanceRun ++ [.run []]) = .ok k ∧
        k.stack = [.waking, .loop] := Machine.exists_of_run (by decide +kernel)
    obtain ⟨s₂, hs₂, hk₂⟩ := Machine.run_append.mp hk₁
    obtain rfl : s₂ = s₁ := Except.ok.inj (hs₂.symm.trans hs')
    obtain rfl : k' = k := Except.ok.inj ((Machine.run_single.mp hk₂).symm.trans hk')
    show k'.Inside [.loop]
    rw [Inside, hq']
    simp
  obtain ⟨-, hwoken⟩ := hall _ _ hin hrun
  obtain ⟨os, hlog, hos⟩ := hwoken (by rw [Inside, hqm.1]; simp)
  obtain ⟨hdone, w, hw⟩ := (hos 0).1 (by rw [hq.2.2.1, hqm.2])
  exact ⟨s₀, s₁, m, hs, hst, hrun, hlt, hqm.2 ▸ hdone, os, w, hlog, hw⟩

end SimCx

end Refault
