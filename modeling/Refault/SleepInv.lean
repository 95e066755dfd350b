import Refault.TimeScheduler

/-!
# Refault.SleepInv — the representation invariant of the time scheduler

`TimeScheduler.Inv`: the queue holds exactly the `Sleep`s in state `Waiting`, each under its own deadline, and
none whose deadline is before `now`.  Between two advances it holds none at `now` either (`Settled`).  `Act`
lists what a step can do to the scheduler.
-/

namespace Refault

namespace TimeScheduler

section Update

variable {Q : Type} (ts : TimeScheduler Q) (loc loc' : Loc) (d : Instant) (st : TimeFutureState) (o : SleepObs)

@[simp] theorem sleeps_setState :
    (ts.setState loc d st).sleeps = Function.update ts.sleeps loc (some ⟨d, st⟩) := rfl
@[simp] theorem upcomingEvents_setState : (ts.setState loc d st).upcomingEvents = ts.upcomingEvents := rfl
@[simp] theorem now_setState : (ts.setState loc d st).now = ts.now := rfl
@[simp] theorem log_setState : (ts.setState loc d st).log = ts.log := rfl
@[simp] theorem sleeps_note : (ts.note o).sleeps = ts.sleeps := rfl
@[simp] theorem upcomingEvents_note : (ts.note o).upcomingEvents = ts.upcomingEvents := rfl
@[simp] theorem now_note : (ts.note o).now = ts.now := rfl
@[simp] theorem log_note : (ts.note o).log = ts.log ++ [o] := rfl

end Update

variable {Q : Type} [KeyedQueue Q Loc Instant]

/-- The registered deadline of the `Sleep` at `loc`. -/
def due (ts : TimeScheduler Q) (loc : Loc) : Option Instant := KeyedQueue.get ts.upcomingEvents loc

structure Inv (ts : TimeScheduler Q) : Prop where
  due_iff : ∀ loc t, ts.due loc = some t ↔ ∃ w, ts.sleeps loc = some ⟨t, .waiting w⟩
  init : ∀ loc d t, ts.sleeps loc = some ⟨d, .init t⟩ → t = d
  done : ∀ loc d t, ts.sleeps loc = some ⟨d, .done t⟩ → t = d ∧ d ≤ ts.now
  now_le : ∀ loc t, ts.due loc = some t → ts.now ≤ t

/-- No registered deadline is reached. -/
def Settled (ts : TimeScheduler Q) : Prop := ∀ loc t, ts.due loc = some t → ts.now < t

/-- What one step does to the scheduler. -/
inductive Act (ts : TimeScheduler Q) : TimeScheduler Q → Prop
  | newSleep (loc : Loc) (deadline : Instant) (hs : ts.sleeps loc = none) : Act ts (ts.newSleep loc deadline)
  | elapsed (loc : Loc) (d t : Instant) (w : Waker) (hs : ts.sleeps loc = some ⟨d, .init t⟩) (ht : t ≤ ts.now) :
      Act ts ((ts.setState loc d .taken).note (.poll loc w (some t)))
  | register (loc : Loc) (d t : Instant) (w : Waker) (hs : ts.sleeps loc = some ⟨d, .init t⟩) (ht : ts.now < t) :
      Act ts ({ ts.setState loc d (.waiting w) with
        upcomingEvents := KeyedQueue.push ts.upcomingEvents loc t }.note (.poll loc w none))
  | repoll (loc : Loc) (d : Instant) (w w' : Waker) (hs : ts.sleeps loc = some ⟨d, .waiting w'⟩) :
      Act ts ((ts.setState loc d (.waiting w)).note (.poll loc w none))
  | ready (loc : Loc) (d t : Instant) (w : Waker) (hs : ts.sleeps loc = some ⟨d, .done t⟩) :
      Act ts ((ts.setState loc d (.done t)).note (.poll loc w (some t)))
  | dropSleep (loc : Loc) (hs : ts.sleeps loc ≠ none) : Act ts (ts.dropSleep loc)
  | advance (loc : Loc) (t : Instant) (hp : KeyedQueue.peek ts.upcomingEvents = some (loc, t)) :
      Act ts (ts.advanceTo t)
  | wake (loc : Loc) (t : Instant) (w : Waker) (q : Q)
      (hp : KeyedQueue.popIf ts.upcomingEvents (fun t => decide (t ≤ ts.now)) = some ((loc, t), q))
      (hs : ts.sleeps loc = some ⟨t, .waiting w⟩) :
      Act ts (({ ts with upcomingEvents := q }.setState loc t (.done t)).note (.wake loc w))

section Due

variable {ts : TimeScheduler Q}

@[simp] theorem due_setState (loc loc' : Loc) (d : Instant) (st : TimeFutureState) :
    (ts.setState loc d st).due loc' = ts.due loc' := rfl

@[simp] theorem due_note (o : SleepObs) (loc : Loc) : (ts.note o).due loc = ts.due loc := rfl

theorem due_push (loc loc' : Loc) (t : Instant) : KeyedQueue.get (KeyedQueue.push ts.upcomingEvents loc t) loc' =
    if loc' = loc then some t else ts.due loc' := by
  rw [KeyedQueue.get_push, Function.update_apply]; rfl

theorem due_remove (loc loc' : Loc) : KeyedQueue.get (KeyedQueue.remove ts.upcomingEvents loc) loc' =
    if loc' = loc then none else ts.due loc' := by
  rw [KeyedQueue.get_remove, Function.update_apply]; rfl

theorem due_popIf {loc : Loc} {t : Instant} {q : Q}
    (h : KeyedQueue.popIf ts.upcomingEvents (fun t => decide (t ≤ ts.now)) = some ((loc, t), q)) :
    ts.due loc = some t ∧ t ≤ ts.now ∧ ∀ loc', KeyedQueue.get q loc' = if loc' =
    loc then none else ts.due loc' := by
  obtain ⟨hp, hle, hq⟩ := KeyedQueue.popIf_eq_some h
  refine ⟨KeyedQueue.get_of_peek _ _ _ hp, by simpa using hle, fun loc' => ?_⟩
  rw [hq, Function.update_apply]; rfl

end Due

section New

variable (now : Instant)

theorem due_new (loc : Loc) : (TimeScheduler.new now : TimeScheduler Q).due loc = none := KeyedQueue.get_empty loc

theorem inv_new : (TimeScheduler.new now : TimeScheduler Q).Inv where
  due_iff loc t := by rw [due_new]; simp [TimeScheduler.new]
  init loc d t h := by simp [TimeScheduler.new] at h
  done loc d t h := by simp [TimeScheduler.new] at h
  now_le loc t h := by rw [due_new] at h; cases h

theorem settled_new : (TimeScheduler.new now : TimeScheduler Q).Settled := by
  intro loc t h
  rw [due_new] at h
  cases h

end New

section Inv

variable {ts : TimeScheduler Q}

/-- A `Sleep` that is not waiting has no entry. -/
theorem Inv.due_none (hI : ts.Inv) {loc : Loc} (h : ∀ d w, ts.sleeps loc ≠ some ⟨d, .waiting w⟩) :
    ts.due loc = none := by
  cases hd : ts.due loc with
  | none => rfl
  | some t =>
    obtain ⟨w, hw⟩ := (hI.due_iff loc t).mp hd
    exact absurd hw (h t w)

/-- One cell changes: the invariant holds again if the cell and its entry agree. -/
theorem Inv.changeAt {ts' : TimeScheduler Q} (hI : ts.Inv) (loc : Loc)
    (hsleeps : ∀ loc', loc' ≠ loc → ts'.sleeps loc' = ts.sleeps loc')
    (hdue : ∀ loc', loc' ≠ loc → ts'.due loc' = ts.due loc') (hnow : ts'.now = ts.now)
    (h1 : ∀ t, ts'.due loc = some t ↔ ∃ w, ts'.sleeps loc = some ⟨t, .waiting w⟩)
    (h2 : ∀ d t, ts'.sleeps loc = some ⟨d, .init t⟩ → t = d)
    (h3 : ∀ d t, ts'.sleeps loc = some ⟨d, .done t⟩ → t = d ∧ d ≤ ts.now)
    (h4 : ∀ t, ts'.due loc = some t → ts.now ≤ t) : ts'.Inv where
  due_iff loc' t := by
    by_cases h : loc' = loc
    · subst h; exact h1 t
    · rw [hdue loc' h, hsleeps loc' h]; exact hI.due_iff loc' t
  init loc' d t := by
    by_cases h : loc' = loc
    · subst h; exact h2 d t
    · rw [hsleeps loc' h]; exact hI.init loc' d t
  done loc' d t := by
    rw [hnow]
    by_cases h : loc' = loc
    · subst h; exact h3 d t
    · rw [hsleeps loc' h]; exact hI.done loc' d t
  now_le loc' t := by
    rw [hnow]
    by_cases h : loc' = loc
    · subst h; exact h4 t
    · rw [hdue loc' h]; exact hI.now_le loc' t

/-- **Every act keeps the invariant.** -/
theorem Act.inv {ts' : TimeScheduler Q} (h : Act ts ts') (hI : ts.Inv) : ts'.Inv := by
  cases h with
  | newSleep loc d hs =>
    have hd : ts.due loc = none := hI.due_none (by simp [hs])
    have hd' : (ts.newSleep loc d).due loc = none := hd
    refine hI.changeAt loc (fun loc' h => by simp [TimeScheduler.newSleep, h])
      (fun _ _ => rfl) rfl (fun t => ?_) ?_ ?_ ?_
    · rw [hd']; simp [TimeScheduler.newSleep]
    · simp [TimeScheduler.newSleep]
    · simp [TimeScheduler.newSleep]
    · rw [hd']; simp
  | elapsed loc d t w hs ht =>
    have hd : ts.due loc = none := hI.due_none (by simp [hs])
    exact hI.changeAt loc (fun loc' h => by simp [h]) (fun _ _ => rfl) rfl (fun t => by simp [hd]) (by simp)
      (by simp) (by simp [hd])
  | register loc d t w hs ht =>
    obtain rfl := hI.init loc d t hs
    refine hI.changeAt loc (fun loc' h => by simp [h]) (fun loc' h => ?_) rfl (fun t => ?_) ?_ ?_ ?_
    · exact (due_push loc loc' t).trans (if_neg h)
    · show KeyedQueue.get (KeyedQueue.push _ _ _) loc = _ ↔ _
      rw [due_push]
      simp
    · simp
    · simp
    · intro t' h
      have h' : KeyedQueue.get (KeyedQueue.push ts.upcomingEvents loc t) loc = some t' := h
      rw [due_push, if_pos rfl] at h'
      cases h'
      exact le_of_lt ht
  | repoll loc d w w' hs =>
    have hd : ts.due loc = some d := (hI.due_iff loc d).mpr ⟨w', hs⟩
    refine hI.changeAt loc (fun loc' h => by simp [h]) (fun _ _ => rfl) rfl (fun t => ?_) (by simp) (by simp)
      (hI.now_le loc)
    show ts.due loc = _ ↔ _
    rw [hd]
    simp
  | ready loc d t w hs =>
    have hd : ts.due loc = none := hI.due_none (by simp [hs])
    refine hI.changeAt loc (fun loc' h => by simp [h]) (fun _ _ => rfl) rfl (fun t => by simp [hd]) (by simp) ?_
      (by simp [hd])
    intro d' t' h
    simp only [sleeps_note, sleeps_setState, Function.update_self, Option.some.injEq, Sleep.mk.injEq,
      TimeFutureState.done.injEq] at h
    obtain ⟨rfl, rfl⟩ := h
    exact hI.done loc _ _ hs
  | dropSleep loc hs =>
    have hdue : ∀ loc', (ts.dropSleep loc).due loc' = if loc' = loc then none else ts.due loc' := due_remove loc
    exact hI.changeAt loc (fun loc' h => by simp [TimeScheduler.dropSleep, h])
      (fun loc' h => by rw [hdue, if_neg h]) rfl
      (fun t => by rw [hdue]; simp [TimeScheduler.dropSleep]) (by simp [TimeScheduler.dropSleep])
        (by simp [TimeScheduler.dropSleep])
      (fun t h => by rw [hdue] at h; simp at h)
  | advance loc t hp =>
    have hle : ts.now ≤ t := hI.now_le loc t (KeyedQueue.get_of_peek _ _ _ hp)
    exact
      { due_iff := hI.due_iff
        init := hI.init
        done := fun loc' d t' h => ⟨(hI.done loc' d t' h).1, le_trans (hI.done loc' d t' h).2 hle⟩
        now_le := fun loc' t' h => KeyedQueue.le_of_peek _ _ _ hp loc' t' h }
  | wake loc t w q hp hs =>
    obtain ⟨-, hle, hq⟩ := due_popIf hp
    refine hI.changeAt loc (fun loc' h => by simp [h])
      (fun loc' h => (hq loc').trans (if_neg h)) rfl ?_ (by simp) ?_ ?_
    · intro t'
      show KeyedQueue.get q loc = _ ↔ _
      rw [hq, if_pos rfl]
      simp
    · intro d t' h
      simp only [sleeps_note, sleeps_setState, Function.update_self, Option.some.injEq, Sleep.mk.injEq,
        TimeFutureState.done.injEq] at h
      obtain ⟨rfl, rfl⟩ := h
      exact ⟨rfl, hle⟩
    · intro t' h
      have h' : KeyedQueue.get q loc = some t' := h
      rw [hq, if_pos rfl] at h'
      cases h'

/-- A registered deadline is a new one only in the first poll of a `Sleep`, and then it is after `now`. -/
theorem Act.settled {ts' : TimeScheduler Q} (h : Act ts ts') (hn : ts'.now = ts.now) (hs : ts.Settled) :
    ts'.Settled := by
  intro loc' t' h'
  rw [hn]
  cases h with
  | newSleep loc d _ => exact hs loc' t' h'
  | elapsed loc d t w _ ht => exact hs loc' t' h'
  | register loc d t w _ ht =>
    have h'' : KeyedQueue.get (KeyedQueue.push ts.upcomingEvents loc t) loc' = some t' := h'
    rw [due_push] at h''
    split_ifs at h''
    · cases h''; exact ht
    · exact hs loc' t' h''
  | repoll loc d w w' _ => exact hs loc' t' h'
  | ready loc d t w _ => exact hs loc' t' h'
  | dropSleep loc _ =>
    have h'' : KeyedQueue.get (KeyedQueue.remove ts.upcomingEvents loc) loc' = some t' := h'
    rw [due_remove] at h''
    split_ifs at h''
    exact hs loc' t' h''
  | advance loc t hp => exact hs loc' t' h'
  | wake loc t w q hp _ =>
    have h'' : KeyedQueue.get q loc' = some t' := h'
    rw [(due_popIf hp).2.2] at h''
    split_ifs at h''
    exact hs loc' t' h''

/-! ## The functions of the scheduler act -/

theorem pollState_act {ts' : TimeScheduler Q} {loc : Loc} {sl : Sleep} {w : Waker} (hs : ts.sleeps loc = some sl)
    (h : ts.pollState loc sl.deadline w sl.state = .ok ts') : Act ts ts' := by
  obtain ⟨d, st⟩ := sl
  cases st with
  | init t =>
    simp only [pollState] at h
    split_ifs at h with ht
    · cases h; exact .elapsed loc d t w hs ht
    · cases h; exact .register loc d t w hs (lt_of_not_ge ht)
  | waiting w' => cases h; exact .repoll loc d w w' hs
  | done t => cases h; exact .ready loc d t w hs
  | taken => cases h

theorem pollState_now {ts' : TimeScheduler Q} {loc : Loc} {d : Instant} {w : Waker} {st : TimeFutureState}
    (h : ts.pollState loc d w st = .ok ts') : ts'.now = ts.now := by
  cases st with
  | init t =>
    simp only [pollState] at h
    split_ifs at h <;> cases h <;> rfl
  | waiting _ | done _ => cases h; rfl
  | taken => cases h

/-- A waker in a cell after a poll is the one of the poll, or was there before. -/
theorem pollState_waiting {ts' : TimeScheduler Q} {loc loc' : Loc} {d d' : Instant} {w w' : Waker}
    {st : TimeFutureState} (h : ts.pollState loc d w st = .ok ts')
    (hw : ts'.sleeps loc' = some ⟨d', .waiting w'⟩) : w' = w ∨ ts.sleeps loc' = some ⟨d', .waiting w'⟩ := by
  by_cases hl : loc' = loc
  · subst hl
    cases st with
    | init t =>
      simp only [pollState] at h
      split_ifs at h <;> cases h <;> simp at hw
      exact Or.inl hw.2.symm
    | waiting _ => cases h; simp at hw; exact Or.inl hw.2.symm
    | done _ => cases h; simp at hw
    | taken => cases h
  · have : ts'.sleeps loc' = ts.sleeps loc' := by
      cases st with
      | init t =>
        simp only [pollState] at h
        split_ifs at h <;> cases h <;> simp [hl]
      | waiting _ | done _ => cases h; simp [hl]
      | taken => cases h
    exact Or.inr (this ▸ hw)

/-- `wakeNext` finds every popped `Sleep` waiting. -/
theorem wakeNext_spec (hI : ts.Inv) : ts.wakeNext = .ok (none, ts) ∧ ts.Settled ∨
    ∃ loc t w q, KeyedQueue.popIf ts.upcomingEvents (fun t => decide (t ≤ ts.now)) = some ((loc, t), q) ∧
      ts.sleeps loc = some ⟨t, .waiting w⟩ ∧
      ts.wakeNext = .ok (some w, ({ ts with upcomingEvents := q }.setState loc t (.done t)).note
        (.wake loc w)) := by
  cases hp : KeyedQueue.popIf ts.upcomingEvents (fun t => decide (t ≤ ts.now)) with
  | none =>
    refine Or.inl ⟨by simp only [wakeNext, hp], fun loc t h => KeyedQueue.popIf_eq_none hp h⟩
  | some r =>
    obtain ⟨⟨loc, t⟩, q⟩ := r
    obtain ⟨w, hw⟩ := (hI.due_iff loc t).mp (due_popIf hp).1
    exact Or.inr ⟨loc, t, w, q, rfl, hw, by simp only [wakeNext, hp, hw]⟩

end Inv

end TimeScheduler

end Refault
