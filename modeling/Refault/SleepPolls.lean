import Refault.SleepOnTime

/-!
# Refault.SleepPolls — polling a `Sleep` again

`Sleep::poll` empties the cell and puts the next state back, except when the deadline of a `Sleep` that was
never polled has already passed: then the cell keeps `Taken`, and the next poll panics.  The results of a
`Sleep`'s polls are read off the scheduler's log (`sleepPolls`), and tell the state of its cell (`Polled`).
-/

namespace Refault

/-- What the polls of the `Sleep` at `loc` have returned, since it was made. -/
def sleepPolls (loc : Loc) (log : List SleepObs) : List (Option Instant) :=
  log.foldl (fun a o => match o with
    | .new l _ => if l = loc then [] else a
    | .poll l _ r => if l = loc then a ++ [r] else a
    | .drop _ | .wake _ _ => a) []

@[simp] theorem sleepPolls_note (loc : Loc) (log : List SleepObs) (o : SleepObs) : sleepPolls loc (log ++ [o]) =
    match o with
    | .new l _ => if l = loc then [] else sleepPolls loc log
    | .poll l _ r => if l = loc then sleepPolls loc log ++ [r] else sleepPolls loc log
    | .drop _ | .wake _ _ => sleepPolls loc log := by
  unfold sleepPolls
  rw [List.foldl_append]
  cases o <;> rfl

theorem sleepPolls_poll (loc : Loc) (log : List SleepObs) (w : Waker) (r : Option Instant) :
    sleepPolls loc (log ++ [.poll loc w r]) = sleepPolls loc log ++ [r] := by
  simp

/-- The first poll came at the deadline or after it. -/
def PolledLate (loc : Loc) (log : List SleepObs) : Prop := ∃ t, (sleepPolls loc log).head? = some (some t)

namespace TimeScheduler

variable {Q : Type} [KeyedQueue Q Loc Instant] {ts ts' : TimeScheduler Q}

/-- What the polls of the `Sleep` in `sl` have returned at `now`, by its state. -/
def Sleep.Returned (now : Instant) (sl : Sleep) (rs : List (Option Instant)) : Prop :=
  match sl.state with
  | .init _ => rs = []
  | .waiting _ => rs.head? = some none ∧ ∀ r ∈ rs, r = none
  | .done _ => rs.head? = some none ∧ ∀ t, some t ∈ rs → t = sl.deadline
  | .taken => rs = [some sl.deadline] ∧ sl.deadline ≤ now

/-- The cells agree with what was returned. -/
def Polled (ts : TimeScheduler Q) : Prop :=
  ∀ loc sl, ts.sleeps loc = some sl → Sleep.Returned ts.now sl (sleepPolls loc ts.log)

theorem polled_new (now : Instant) : (TimeScheduler.new now : TimeScheduler Q).Polled := by
  intro loc sl h
  cases h

omit [KeyedQueue Q Loc Instant] in
/-- One cell changes, with one entry of the log. -/
theorem Polled.changeAt (hP : ts.Polled) (loc : Loc) {o : SleepObs} (hl : ts'.log = ts.log ++ [o])
    (hn : ts'.now = ts.now) (hsleeps : ∀ loc', loc' ≠ loc → ts'.sleeps loc' = ts.sleeps loc')
    (hpolls : ∀ loc', loc' ≠ loc → sleepPolls loc' (ts.log ++ [o]) = sleepPolls loc' ts.log)
    (h : ∀ sl, ts'.sleeps loc = some sl → Sleep.Returned ts.now sl (sleepPolls loc (ts.log ++ [o]))) :
    ts'.Polled := by
  intro loc' sl hs
  rw [hl, hn]
  by_cases hloc : loc' = loc
  · subst hloc
    exact h sl hs
  · rw [hpolls loc' hloc]
    exact hP loc' sl (hsleeps loc' hloc ▸ hs)

theorem Act.polled (h : Act ts ts') (hI : ts.Inv) (hP : ts.Polled) : ts'.Polled := by
  cases h with
  | newSleep loc d hs =>
    refine hP.changeAt loc (o := .new loc d) rfl rfl (fun l hl => ?_) (fun l hl => ?_) fun sl hsl => ?_
    · simp [TimeScheduler.newSleep, hl]
    · simp [Ne.symm hl]
    · obtain rfl : (⟨d, .init d⟩ : Sleep) = sl := by simpa [TimeScheduler.newSleep] using hsl
      simp [Sleep.Returned]
  | elapsed loc d t w hs ht =>
    obtain rfl := hI.init loc d t hs
    have hnil : sleepPolls loc ts.log = [] := hP loc _ hs
    refine hP.changeAt loc (o := .poll loc w (some t)) rfl rfl (fun l hl => ?_) (fun l hl => ?_) fun sl hsl => ?_
    · simp [hl]
    · simp [Ne.symm hl]
    · obtain rfl : (⟨t, .taken⟩ : Sleep) = sl := by simpa using hsl
      simpa [Sleep.Returned, hnil] using ht
  | register loc d t w hs ht =>
    have hnil : sleepPolls loc ts.log = [] := hP loc _ hs
    refine hP.changeAt loc (o := .poll loc w none) rfl rfl (fun l hl => ?_) (fun l hl => ?_) fun sl hsl => ?_
    · simp [hl]
    · simp [Ne.symm hl]
    · obtain rfl : (⟨d, .waiting w⟩ : Sleep) = sl := by simpa using hsl
      simp [Sleep.Returned, hnil]
  | repoll loc d w w' hs =>
    obtain ⟨hhead, hall⟩ : (sleepPolls loc ts.log).head? = some none ∧
        ∀ r ∈ sleepPolls loc ts.log, r = none := hP loc _ hs
    refine hP.changeAt loc (o := .poll loc w none) rfl rfl (fun l hl => ?_) (fun l hl => ?_) fun sl hsl => ?_
    · simp [hl]
    · simp [Ne.symm hl]
    · obtain rfl : (⟨d, .waiting w⟩ : Sleep) = sl := by simpa using hsl
      refine ⟨by simp [List.head?_append, hhead], fun r hr => ?_⟩
      rw [sleepPolls_poll, List.mem_append, List.mem_singleton] at hr
      exact hr.elim (hall r) id
  | ready loc d t w hs =>
    obtain ⟨rfl, -⟩ := hI.done loc d t hs
    obtain ⟨hhead, hall⟩ : (sleepPolls loc ts.log).head? = some none ∧ ∀ t', some t' ∈ sleepPolls loc ts.log →
        t' = t := hP loc _ hs
    refine hP.changeAt loc (o := .poll loc w (some t)) rfl rfl (fun l hl => ?_) (fun l hl => ?_) fun sl hsl => ?_
    · simp [hl]
    · simp [Ne.symm hl]
    · obtain rfl : (⟨t, .done t⟩ : Sleep) = sl := by simpa using hsl
      refine ⟨by simp [List.head?_append, hhead], fun t' ht' => ?_⟩
      rw [sleepPolls_poll, List.mem_append, List.mem_singleton] at ht'
      exact ht'.elim (hall t') Option.some.inj
  | dropSleep loc hs =>
    refine hP.changeAt loc (o := .drop loc) rfl rfl (fun l hl => ?_) (fun l hl => ?_) fun sl hsl => ?_
    · simp [TimeScheduler.dropSleep, hl]
    · simp
    · simp [TimeScheduler.dropSleep] at hsl
  | advance loc t hp =>
    have hle : ts.now ≤ t := hI.now_le loc t (KeyedQueue.get_of_peek _ _ _ hp)
    intro loc' sl hs
    have h := hP loc' sl hs
    obtain ⟨d, st⟩ := sl
    cases st with
    | taken => exact ⟨h.1, le_trans h.2 hle⟩
    | _ => exact h
  | wake loc t w q hp hs =>
    obtain ⟨hhead, hall⟩ : (sleepPolls loc ts.log).head? = some none ∧
        ∀ r ∈ sleepPolls loc ts.log, r = none := hP loc _ hs
    refine hP.changeAt loc (o := .wake loc w) rfl rfl (fun l hl => ?_) (fun l hl => ?_) fun sl hsl => ?_
    · simp [hl]
    · simp
    · obtain rfl : (⟨t, .done t⟩ : Sleep) = sl := by simpa using hsl
      refine ⟨by simpa using hhead, fun t' ht' => ?_⟩
      cases hall _ (by simpa using ht')

omit [KeyedQueue Q Loc Instant] in
/-- The cell keeps `Taken` exactly after a first poll at or after the deadline. -/
theorem Polled.taken_iff (hP : ts.Polled) {loc : Loc} {sl : Sleep} (hs : ts.sleeps loc = some sl) :
    sl.state = .taken ↔ PolledLate loc ts.log := by
  have h := hP loc sl hs
  obtain ⟨d, st⟩ := sl
  cases st with
  | init t =>
    have hnil : sleepPolls loc ts.log = [] := h
    simp [PolledLate, hnil]
  | waiting w =>
    have hhead : (sleepPolls loc ts.log).head? = some none := h.1
    simp [PolledLate, hhead]
  | done t =>
    have hhead : (sleepPolls loc ts.log).head? = some none := h.1
    simp [PolledLate, hhead]
  | taken =>
    have hone : sleepPolls loc ts.log = [some d] := h.1
    simp [PolledLate, hone]

/-- What was returned is the deadline, and it has passed. -/
theorem Polled.returned (hP : ts.Polled) (hI : ts.Inv) {loc : Loc} {sl : Sleep} (hs : ts.sleeps loc = some sl)
    {t : Instant} (ht : some t ∈ sleepPolls loc ts.log) : t = sl.deadline ∧ sl.deadline ≤ ts.now := by
  have h := hP loc sl hs
  obtain ⟨d, st⟩ := sl
  cases st with
  | init t' =>
    have hnil : sleepPolls loc ts.log = [] := h
    rw [hnil] at ht
    exact absurd ht List.not_mem_nil
  | waiting w => cases h.2 _ ht
  | done t' => exact ⟨h.2 t ht, (hI.done loc d t' hs).2⟩
  | taken =>
    have hone : sleepPolls loc ts.log = [some d] := h.1
    rw [hone, List.mem_singleton] at ht
    exact ⟨Option.some.inj ht, h.2⟩

end TimeScheduler

namespace SimCx

variable {V Q : Type} [KeyedQueue Q Loc Instant] {b : SimBuilder} {s s' : SimCx V Q} {l : Label V}

theorem Reachable.polled (hr : Reachable b s) : s.ts.Polled := by
  refine hr.invariant (I := fun s => s.ts.Polled) (TimeScheduler.polled_new _) fun s l s' hB hP h => ?_
  rcases h.tsAct with h | h
  · rw [h]; exact hP
  · exact h.polled hB.sleep hP

/-- What a poll of the `Sleep` at `loc` is to do: it does not panic, returns `Pending` before the deadline and
the deadline from then on, and the same as every poll that was `Ready` before. -/
def PollsRight (loc : Loc) (s : SimCx V Q) (l : Label V) : Prop :=
  ∀ w sl, l = .user (.pollSleep loc w) → s.ts.sleeps loc = some sl → s.step l ≠ .error .disabled →
    ∃ s' r, s.step l = .ok s' ∧ s'.ts.log = s.ts.log ++ [.poll loc w r] ∧
      r = (if s.ts.now < sl.deadline then none else some sl.deadline) ∧
        ∀ t, some t ∈ sleepPolls loc s.ts.log → r = some t

/-- The first poll of the `Sleep` at `loc` came before its deadline, or this is it.  And the code that polls
does not run while the runtime holds the context (a waker called by the waking loop, a future dropped at the
end of its poll), except that a `Sleep` polled before may be polled there if it has been woken or its deadline
has not come. -/
def PollsEarly (loc : Loc) (s : SimCx V Q) (l : Label V) : Prop :=
  ∀ w sl, l = .user (.pollSleep loc w) → s.ts.sleeps loc = some sl → s.step l ≠ .error .disabled →
    ¬ PolledLate loc s.ts.log ∧ (s.cell = .free ∨
      sleepPolls loc s.ts.log ≠ [] ∧ (s.ts.now < sl.deadline ∨ s.ts.due loc = none))

theorem step_pollSleep_eq {loc : Loc} {w : Waker} (h : s.step (.user (.pollSleep loc w)) ≠ .error .disabled) :
    s.step (.user (.pollSleep loc w)) = s.pollSleep loc w := by
  have huser : ∀ {f rest}, s.stack = f :: rest → f.isUser = true →
      s.step (.user (.pollSleep loc w)) = s.userOp (.pollSleep loc w) := by
    intro f rest hk hf
    simp [step, hk, hf]
  cases hk : s.stack with
  | nil => exact absurd (by simp [step, hk]) h
  | cons f rest =>
    by_cases hf : f.isUser = true
    · rw [huser hk hf] at h ⊢
      cases w with
      | custom n => rfl
      | task id =>
        simp only [userOp] at h ⊢
        split_ifs at h ⊢ with hid
        · rfl
        · exact absurd rfl h
    · exact absurd (by simp [step, hk, hf]) h

section PollSleep

variable {loc : Loc} {d t : Instant} {w w' : Waker}

theorem pollSleep_init_late (hs : s.ts.sleeps loc = some ⟨d, .init t⟩) (hc : s.cell = .free) (ht : t ≤ s.ts.now) :
    s.pollSleep loc w = .ok { s with ts := (s.ts.setState loc d .taken).note (.poll loc w (some t)) } := by
  simp [pollSleep, hs, borrow, hc, TimeScheduler.pollState, ht, call, Except.mapError, bind, Except.bind, pure,
    Except.pure]

theorem pollSleep_init_early (hs : s.ts.sleeps loc = some ⟨d, .init t⟩) (hc : s.cell = .free) (ht : s.ts.now < t) :
    s.pollSleep loc w = .ok { s with ts := { s.ts.setState loc d (.waiting w) with
      upcomingEvents := KeyedQueue.push s.ts.upcomingEvents loc t }.note (.poll loc w none) } := by
  simp [pollSleep, hs, borrow, hc, TimeScheduler.pollState, not_le_of_gt ht, call, Except.mapError, bind,
    Except.bind, pure, Except.pure]

theorem pollSleep_init_borrowed (hs : s.ts.sleeps loc = some ⟨d, .init t⟩) (hc : s.cell ≠ .free) :
    ∃ e, s.pollSleep loc w = .error e := by
  unfold pollSleep borrow
  rw [hs]
  cases h : s.cell with
  | free => exact absurd h hc
  | borrowed => exact ⟨_, rfl⟩
  | taken => exact ⟨_, rfl⟩

theorem pollSleep_waiting (hs : s.ts.sleeps loc = some ⟨d, .waiting w'⟩) : s.pollSleep loc w =
    .ok { s with ts := (s.ts.setState loc d (.waiting w)).note (.poll loc w none) } := by
  simp [pollSleep, hs, TimeScheduler.pollState, call, Except.mapError, bind, Except.bind, pure, Except.pure]

theorem pollSleep_done (hs : s.ts.sleeps loc = some ⟨d, .done t⟩) : s.pollSleep loc w =
    .ok { s with ts := (s.ts.setState loc d (.done t)).note (.poll loc w (some t)) } := by
  simp [pollSleep, hs, TimeScheduler.pollState, call, Except.mapError, bind, Except.bind, pure, Except.pure]

theorem pollSleep_taken (hs : s.ts.sleeps loc = some ⟨d, .taken⟩) :
    s.pollSleep loc w = .error (.panic .sleepTaken) := by
  simp [pollSleep, hs, TimeScheduler.pollState, call, Except.mapError, bind, Except.bind]

end PollSleep

/-- One poll. -/
theorem pollsRight_iff (hr : Reachable b s) (loc : Loc) (l : Label V) : PollsRight loc s l ↔
    PollsEarly loc s l := by
  have hB := hr.base
  have hI := hB.sleep
  have hP := hr.polled
  refine forall_congr' fun w => forall_congr' fun sl => ?_
  refine forall_congr' fun hl => forall_congr' fun hs => forall_congr' fun hstep => ?_
  subst hl
  rw [step_pollSleep_eq hstep, ← hP.taken_iff hs]
  have hbefore : ∀ t, some t ∈ sleepPolls loc s.ts.log → t = sl.deadline ∧ sl.deadline ≤ s.ts.now :=
    fun t ht => hP.returned hI hs ht
  have hpolls := hP loc sl hs
  have hdue := hI.due_iff loc
  obtain ⟨d, st⟩ := sl
  cases st with
  | init t =>
    obtain rfl := hI.init loc d t hs
    have hnil : sleepPolls loc s.ts.log = [] := hpolls
    by_cases hc : s.cell = .free
    · refine ⟨fun _ => ⟨by simp, Or.inl hc⟩, fun _ => ?_⟩
      by_cases ht : t ≤ s.ts.now
      · exact ⟨_, _, pollSleep_init_late hs hc ht, rfl, by simp [not_lt_of_ge ht], by simp [hnil]⟩
      · have ht := lt_of_not_ge ht
        exact ⟨_, _, pollSleep_init_early hs hc ht, rfl, by simp [ht], by simp [hnil]⟩
    · obtain ⟨e, he⟩ := pollSleep_init_borrowed (w := w) hs hc
      simp [he, hc, hnil]
  | waiting w' =>
    have hne : sleepPolls loc s.ts.log ≠ [] := by
      intro hnil
      have hhead : (sleepPolls loc s.ts.log).head? = some none := hpolls.1
      simp [hnil] at hhead
    have hd : s.ts.due loc = some d := (hdue d).mpr ⟨w', hs⟩
    have hsettled : s.cell = .free → s.ts.now < d := by
      intro hc
      refine hB.settled (fun hw => ?_) loc d hd
      have hbor := (hB.waking_stack hw).1
      rw [hc] at hbor
      cases hbor
    constructor
    · rintro ⟨s', r, hp, hlog, rfl, -⟩
      rw [pollSleep_waiting hs] at hp
      cases hp
      have hnone := List.append_cancel_left hlog
      refine ⟨by simp, Or.inr ⟨hne, Or.inl ?_⟩⟩
      by_contra hlt
      simp [hlt] at hnone
    · rintro ⟨-, h⟩
      have hlt : s.ts.now < d := by
        rcases h with hc | ⟨-, hlt | hno⟩
        · exact hsettled hc
        · exact hlt
        · rw [hd] at hno; cases hno
      refine ⟨_, none, pollSleep_waiting hs, rfl, by simp [hlt], fun t ht => ?_⟩
      cases hpolls.2 _ ht
  | done t =>
    obtain ⟨rfl, hle⟩ := hI.done loc d t hs
    have hne : sleepPolls loc s.ts.log ≠ [] := by
      intro hnil
      have hhead : (sleepPolls loc s.ts.log).head? = some none := hpolls.1
      simp [hnil] at hhead
    have hd : s.ts.due loc = none := hI.due_none (by simp [hs])
    refine ⟨fun _ => ⟨by simp, Or.inr ⟨hne, Or.inr hd⟩⟩, fun _ => ?_⟩
    refine ⟨_, some t, pollSleep_done hs, rfl, by simp [not_lt_of_ge hle], fun t' ht' => ?_⟩
    rw [(hbefore t' ht').1]
  | taken =>
    rw [pollSleep_taken hs]
    simp

/-- **Polling a `Sleep` is stable exactly while it is polled early.**  In every run, whatever it does and
wherever it ends, the polls of a `Sleep` are right if and only if its first poll comes before its deadline or
is its only one. -/
theorem sleep_polls_stable_iff (hr : Reachable b s) (loc : Loc) (ls : List (Label V)) :
    Machine.Along step (PollsRight loc) s ls ↔ Machine.Along step (PollsEarly loc) s ls := by
  induction ls generalizing s with
  | nil => exact Iff.rfl
  | cons l ls ih =>
    refine and_congr (pollsRight_iff hr loc l) (forall_congr' fun m => forall_congr' fun hm => ?_)
    exact ih (hr.tail hm)

/-- The root polls a `Sleep` five seconds ahead and polls it again. -/
theorem sleep_polls_stable_iff_early : ∃ s :
    ArraySim, Machine.run step (install epoch) advanceRun.dropLast.dropLast = .ok s ∧
    Machine.Along step (PollsRight 0) s [.user (.pollSleep 0 (.task 1))] := by
  obtain ⟨s, hs, hq⟩ : ∃ s : ArraySim, Machine.run step (install epoch) advanceRun.dropLast.dropLast = .ok s ∧
      (s.cell, sleepPolls 0 s.ts.log) = (.free, [none]) :=
    Machine.exists_of_run (by decide +kernel)
  simp only [Prod.mk.injEq] at hq
  refine ⟨s, hs, (sleep_polls_stable_iff ⟨_, hs⟩ 0 _).mpr ⟨?_, fun m hm => trivial⟩⟩
  rintro w sl - - -
  exact ⟨by simp [PolledLate, hq.2], Or.inl hq.1⟩

/-- The root polls a `Sleep` to the current instant, which is ready. -/
def lateRun : List (Label ℕ) :=
  [.user (.done none), .run [], .user (.newSleep 0 (clockGettime epoch.simulationStartTime)),
    .user (.pollSleep 0 (.task 1))]

/-- Polled again it panics. -/
theorem late_sleep_panics : ∃ s : ArraySim, Machine.run step (install epoch) lateRun = .ok s ∧
    sleepPolls 0 s.ts.log = [some (clockGettime epoch.simulationStartTime)] ∧
    s.step (.user (.pollSleep 0 (.task 1))) = .error (.panic .sleepTaken) ∧
    ¬ Machine.Along step (PollsRight 0) s [.user (.pollSleep 0 (.task 1))] := by
  obtain ⟨s, hs, hq⟩ : ∃ s : ArraySim, Machine.run step (install epoch) lateRun = .ok s ∧
      (sleepPolls 0 s.ts.log, s.ts.sleeps 0, s.knows 1, s.stack) =
        ([some (clockGettime epoch.simulationStartTime)],
          some ⟨clockGettime epoch.simulationStartTime, .taken⟩, true, [.poll 0, .loop]) :=
    Machine.exists_of_run (by decide +kernel)
  simp only [Prod.mk.injEq] at hq
  obtain ⟨hpolls, hsleep, hknows, hk⟩ := hq
  have hpanic : s.step (.user (.pollSleep 0 (.task 1))) = .error (.panic .sleepTaken) := by
    rw [step_pollSleep_eq (by simp [step, hk, Frame.isUser, userOp, hknows, pollSleep_taken hsleep])]
    exact pollSleep_taken hsleep
  refine ⟨s, hs, hpolls, hpanic, fun h => ?_⟩
  obtain ⟨s', r, hst, -⟩ := h.1 (.task 1) _ rfl hsleep (by simp [hpanic])
  rw [hpanic] at hst
  cases hst

end SimCx

end Refault
