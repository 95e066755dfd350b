import Refault.Packets

/-!
# Refault.Course — a task that sleeps until its time

A task of `NodeId::INIT` that nothing aborts is not dropped as long as that node runs (`Spared`).  If all it
does is to await one `Sleep`, it is somewhere on its way: not polled yet, asleep until its time, or woken then
(`Course`).
-/

namespace Refault

namespace Exec

variable {V : Type} {e e' : Exec V}

/-- A live task stays live until it is dropped, and a task in the queue stays there until it is polled. -/
theorem Act.live_keep (h : Act e e') (hI : e.Inv) {id : Id} (hl : (e.state id).live = true)
    (hp : e.polling ≠ some id) (hd : drops id e'.log = drops id e.log) :
    (e'.state id).live = true ∧ e'.node id = e.node id ∧
    (e.state id = .ready → e'.state id = .ready ∨ e'.polling = some id) := by
  have hrun : ∀ {j : Id}, e.running = some ⟨j, true⟩ → id ≠ j := by
    rintro j hr rfl
    exact hp (by rw [polling, hr]; rfl)
  -- the state of another task changes
  have other : ∀ {st : TaskState} {n : NodeId}, st = e.state id → n = e.node id → st.live = true ∧ n = e.node id ∧
      (e.state id = .ready → st = .ready ∨ e'.polling = some id) := by
    rintro st n rfl rfl
    exact ⟨hl, rfl, Or.inl⟩
  cases h with
  | spawn node j hrun hid hlt =>
    have hne : id ≠ j := by
      rintro rfl
      rw [hI.fresh id (hid ▸ Nat.lt_succ_self _)] at hl
      cases hl
    exact other (by simp [hne, state_insertTask]) (by simp [hne, node_insertTask])
  | wake j hs =>
    by_cases hj : id = j
    · subst hj
      exact ⟨by simp [TaskState.live], by simp, fun _ => Or.inl (by simp)⟩
    · exact other (by simp [hj]) (by simp)
  | abortPolled j hs hpj =>
    have hne : id ≠ j := by
      rintro rfl
      exact hp hpj
    exact other (by simp [hne]) (by simp)
  | abort j hs hpj =>
    have hne : id ≠ j := by
      rintro rfl
      simp [dropUnsent, drops, Obs.dropOf] at hd
    exact other (by simp [hne, dropUnsent]) (by simp [dropUnsent])
  | poll j q hq hs hr hf =>
    by_cases hj : id = j
    · subst hj
      exact ⟨by simp [takeHead, TaskState.live], by simp [takeHead], fun _ => Or.inr (by simp [takeHead, polling])⟩
    · exact other (by simp [hj, takeHead]) (by simp [takeHead])
  | clear j q st hq hs hr hf =>
    have hne : id ≠ j := by
      rintro rfl
      rcases hs with ⟨hs, -⟩ | ⟨hs, -⟩ <;> rw [hs] at hl <;> cases hl
    exact other (by simp [hne, clearHead]) (by simp [clearHead])
  | ready j v hr hs | readyQueued j v hr hs => exact other (by simp [hrun hr, sent]) (by simp [sent])
  | pendingAborted j hr hs => exact other (by simp [dropUnsent]) (by simp [dropUnsent])
  | _ => exact other rfl rfl

/-- A live task that is woken is in the queue. -/
theorem wakeByRef_ready {id : Id} (hl : (e.state id).live = true) (h : e.wakeByRef id = .ok e') :
    e'.state id = .ready := by
  unfold wakeByRef at h
  split at h
  case h_5 hs => cases h; exact hs
  case h_6 => cases h; simp
  all_goals
    rename_i hs
    rw [hs] at hl
    cases hl

end Exec

/-- The frame does not drop the future of `id` and will not abort its task. -/
def Frame.Spares {V : Type} (id : Id) : Frame V → Prop
  | .discard j _ _ => j ≠ id
  | .stopNode ids _ => id ∉ ids
  | _ => True

/-- A poll changes no other `Sleep`. -/
theorem TimeScheduler.pollState_other {Q : Type} [KeyedQueue Q Loc Instant] {ts ts' : TimeScheduler Q}
    {loc loc' : Loc} {d : Instant}
    {w : Waker} {st : TimeFutureState} (h : ts.pollState loc' d w st = .ok ts') (hne : loc ≠ loc') :
    ts'.sleeps loc = ts.sleeps loc := by
  cases st with
  | init t =>
    simp only [pollState] at h
    split_ifs at h <;> cases h <;> simp [hne]
  | waiting _ | done _ => cases h; simp [hne]
  | taken => cases h

theorem TimeScheduler.pollState_self {Q : Type} [KeyedQueue Q Loc Instant] {ts ts' : TimeScheduler Q}
    {loc : Loc} {d : Instant}
    {w : Waker} {st : TimeFutureState} (h : ts.pollState loc d w st = .ok ts') : ts'.sleeps loc ≠ none := by
  cases st with
  | init t =>
    simp only [pollState] at h
    split_ifs at h <;> cases h <;> simp
  | waiting _ | done _ => cases h; simp
  | taken => cases h

namespace SimCx

variable {V Q : Type} [KeyedQueue Q Loc Instant] {b : SimBuilder} {s s' : SimCx V Q} {l : Label V} {id : Id}
  {T D : Instant} {bed : Option Loc}

omit [KeyedQueue Q Loc Instant] in
/-- `NodeId::INIT` runs, and `stop_simulation` was not called. -/
def Up (s : SimCx V Q) : Prop := s.ex.runLevel initNode = some .running ∧ s.ex.finalStopped = false

/-! ## A task that nothing drops -/

/-- The task `id` of `NodeId::INIT` is live, and no frame will change that. -/
structure Spared (s : SimCx V Q) (id : Id) : Prop where
  live : (s.ex.state id).live = true
  node : s.ex.node id = initNode
  frames : ∀ f ∈ s.stack, f.Spares id

theorem Spared.step_frames (hS : s.Spared id) (hB : s.Base) (h : Next s l s') (hup : s'.Up)
    (hl : l ≠ .user (.abort id)) (hp : s.ex.polling ≠ some id) : ∀ f ∈ s'.stack, f.Spares id := by
  have cons : ∀ {f : Frame V} {fs : List (Frame V)}, f.Spares id → (∀ g ∈ fs, g.Spares id) →
      ∀ g ∈ f :: fs, g.Spares id :=
    fun hf hfs => List.forall_mem_cons.mpr ⟨hf, hfs⟩
  have top : ∀ {f : Frame V} {rest : List (Frame V)}, s.stack = f :: rest → f.Spares id ∧
      ∀ g ∈ rest, g.Spares id :=
    fun hk => List.forall_mem_cons.mp (hk ▸ hS.frames)
  -- a node that is stopped is not that of `id`
  have hstop : ∀ {n : NodeId} {nd : NodeData} {order : List Id}, s.ex.nodes[n]? = some nd →
      order.toFinset = nd.tasks → s'.ex.runLevel n ≠ some .running → id ∉ order := by
    intro n nd order hn ho hlv hid
    obtain ⟨-, rfl⟩ := hB.on_of_mem hn ho id hid
    rw [hS.node] at hlv
    exact hlv hup.1
  have hlevel : ∀ {n : NodeId} {nd : NodeData} {lv : NodeRunLevel}, s.ex.nodes[n]? = some nd → lv ≠ .running →
      (s.ex.setRunLevel n lv).runLevel n ≠ some .running := by
    intro n nd lv hn hlv h0
    have hn' : s.ex.runLevel n = some nd.runLevel := by simp [Exec.runLevel, hn]
    simp [hn'] at h0
    exact hlv h0
  cases h with
  | abort j hu hc hlj hpj => exact cons (fun h0 => hl (h0 ▸ rfl)) hS.frames
  | stop n order nd hu hc hn hrun hnd ho => exact cons (hstop hn ho (hlevel hn (by decide))) hS.frames
  | stopAllRun order n nodes rest nd hk hc hn hrun hnd ho =>
    exact cons (hstop hn ho (hlevel hn (by decide))) (cons trivial (top hk).2)
  | pollDropped l caller rest j r e hk hc hr hd he ha hr' hf =>
    have hne : j ≠ id := by
      rintro rfl
      exact hp (Exec.polling_of_running hr)
    rcases hk with ⟨hk, -⟩ | ⟨v, order, hk, -⟩ <;> exact cons hne (top hk).2
  | stopNext order j ids caller rest e hk hc hlj =>
    exact cons (fun h0 => (top hk).1 (List.mem_cons_of_mem _ h0)) (top hk).2
  | stopDrop order j ids caller rest hk hc hlj hpj =>
    have hj : id ∉ j :: ids := (top hk).1
    exact cons (fun h0 => hj (h0 ▸ List.mem_cons_self))
      (cons (fun h0 => hj (List.mem_cons_of_mem _ h0)) (top hk).2)
  | start | createNode | stopSimulation | withSimulator => exact cons trivial hS.frames
  | doneInit r rest j hk | exhausted order rest hk | stopSims order caller rest hk
  | stopAllSkip order n nodes rest nd hk
  | taken order time rest hk => exact cons trivial (top hk).2
  | doneWaker r rest hk | pollKept caller rest j hk | doneDiscard r j post caller rest hk | doneDropSim r rest hk
  | wakeDone order rest hk | simsDone order cb len caller rest hk | stopAllDone order rest hk => exact (top hk).2
  | putBack r i sim rest hk => rcases hk with hk | hk <;> exact (top hk).2
  | rootReady v caller rest j hk | advance order rest loc next time hk | poll order rest j q hk
  | simsNext order cb len i idx caller rest sim hk | destroy order rest hk | dropSim order time rest sim hk =>
    exact cons trivial (cons trivial (top hk).2)
  | wakeCustom order rest loc t n q hk => exact cons trivial (cons trivial (top hk).2)
  | _ => exact hS.frames

theorem Spared.step (hS : s.Spared id) (hB : s.Base) (h : Next s l s') (hup : s'.Up) (hl : l ≠ .user (.abort id))
    (hp : s.ex.polling ≠ some id) :
    s'.Spared id ∧ (s.ex.state id = .ready → s'.ex.state id = .ready ∨ s'.ex.polling = some id) := by
  have hF := hS.step_frames hB h hup hl hp
  have hd : drops id s'.ex.log = drops id s.ex.log := by
    by_contra hne
    obtain ⟨post, c, rest, hk⟩ := h.drop_frame hne
    have hid : (Frame.discard id post c : Frame V).Spares id := hF _ (by rw [hk]; exact List.mem_cons_self)
    exact hid rfl
  rcases h.act hB with he | he
  · rw [he]
    exact ⟨⟨he ▸ hS.live, he ▸ hS.node, hF⟩, Or.inl⟩
  · obtain ⟨h1, h2, h3⟩ := he.live_keep hB.exec hS.live hp hd
    exact ⟨⟨h1, h2.trans hS.node, hF⟩, h3⟩

/-! ## On the way -/

/-- How far the future of `id` is in a sleep until `T` that ends at `D`, its `Sleep` being at `bed` once it is
polled. -/
inductive Course (s : SimCx V Q) (id : Id) (T D : Instant) : Option Loc → Prop
  | unpolled (hD : D = max s.ts.now T) (hr : s.ex.state id = .ready ∨ s.ex.polling = some id) :
      Course s id T D none
  | waiting (loc : Loc) (hD : D = T) (hs : s.ts.sleeps loc = some ⟨T, .waiting (.task id)⟩) :
      Course s id T D (some loc)
  | woken (loc : Loc) (hD : D = T) (hn : s.ts.now = T) (hs : s.ts.sleeps loc = some ⟨T, .done T⟩)
      (hr : s.ex.state id = .ready ∨ s.ex.polling = some id) : Course s id T D (some loc)

/-- User code calls neither for the task `id` nor for the `Sleep` at `bed`. -/
def KeepsOff (id : Id) (bed : Option Loc) : Label V → Prop
  | .user (.abort j) => j ≠ id
  | .user (.pollSleep loc _) | .user (.dropSleep loc) => bed ≠ some loc
  | _ => True

/-- User code neither polls nor drops the `Sleep` at `loc`. -/
def LeavesSleep (loc : Loc) : Label V → Prop
  | .user (.pollSleep loc' _) | .user (.dropSleep loc') => loc' ≠ loc
  | _ => True

omit [KeyedQueue Q Loc Instant] in
theorem KeepsOff.leaves {loc : Loc} (h : KeepsOff id (some loc) l) : LeavesSleep loc l := by
  unfold LeavesSleep
  split
  · exact fun h0 => h (congrArg some h0.symm)
  · exact fun h0 => h (congrArg some h0.symm)
  · trivial

theorem Course.now_le (hC : s.Course id T D bed) (hB : s.Base) : s.ts.now ≤ D := by
  cases hC with
  | unpolled hD hr => rw [hD]; exact le_max_left _ _
  | waiting loc hD hs => rw [hD]; exact hB.sleep.now_le loc T ((hB.sleep.due_iff loc T).mpr ⟨_, hs⟩)
  | woken loc hD hn hs hr => rw [hD, hn]

/-- The clock does not move while a task is in the queue. -/
theorem Next.now_of_ready (h : Next s l s') (hB : s.Base) (hf : s.ex.finalStopped = false)
    (hr : s.ex.state id = .ready) : s'.ts.now = s.ts.now := by
  rcases h.clock with ⟨-, hn, -⟩ | ⟨dt, hadv⟩
  · exact hn
  · exfalso
    rcases hadv.queue with hf' | hq
    · rw [hf] at hf'
      cases hf'
    · have hm : id ∈ s.ex.readyQueue := by rw [hB.exec.queued, hr]; rfl
      rw [hq] at hm
      cases hm

/-- The `Sleep` at `loc` stays as it is, unless it is woken. -/
theorem Next.sleep_keep (h : Next s l s') (hB : s.Base) {loc : Loc} (hl : LeavesSleep loc l) {sl : Sleep}
    (hs : s.ts.sleeps loc = some sl) : s'.ts.sleeps loc = some sl ∨
      ∃ w, sl = ⟨s.ts.now, .waiting w⟩ ∧ s'.ts.now = s.ts.now ∧
      s'.ts.sleeps loc = some ⟨s.ts.now, .done s.ts.now⟩ ∧
        ∀ j, w = .task j → s.ex.wakeByRef j = .ok s'.ex := by
  have hnow : ∀ {loc' : Loc} {t : Instant} {q : Q},
      KeyedQueue.popIf s.ts.upcomingEvents (fun t => decide (t ≤ s.ts.now)) = some ((loc', t), q) →
          t = s.ts.now := fun hp =>
    le_antisymm (TimeScheduler.due_popIf hp).2.1 (hB.sleep.now_le _ _ (TimeScheduler.due_popIf hp).1)
  cases h with
  | newSleep loc' deadline hu hs' =>
    have hne : loc ≠ loc' := by
      rintro rfl
      rw [hs'] at hs
      cases hs
    exact Or.inl (by simpa [TimeScheduler.newSleep, hne] using hs)
  | pollSleep loc' sl' w ts hu hs' hc hw hp =>
    exact Or.inl ((TimeScheduler.pollState_other hp (Ne.symm hl)).trans hs)
  | dropSleep loc' hu hc hs' =>
    exact Or.inl (by simpa [TimeScheduler.dropSleep, Ne.symm hl] using hs)
  | wakeTask order rest loc' t j q e hk hp hs' he =>
    by_cases hne : loc = loc'
    · subst hne
      obtain rfl := hnow hp
      obtain rfl : sl = ⟨s.ts.now, .waiting (.task j)⟩ := Option.some.inj (hs.symm.trans hs')
      refine Or.inr ⟨_, rfl, rfl, by simp, fun i hi => ?_⟩
      cases hi
      exact he
    · exact Or.inl (by simpa [hne] using hs)
  | wakeCustom order rest loc' t n q hk hp hs' =>
    by_cases hne : loc = loc'
    · subst hne
      obtain rfl := hnow hp
      obtain rfl : sl = ⟨s.ts.now, .waiting (.custom n)⟩ := Option.some.inj (hs.symm.trans hs')
      exact Or.inr ⟨_, rfl, rfl, by simp, fun i hi => by cases hi⟩
    · exact Or.inl (by simpa [hne] using hs)
  | _ => exact Or.inl hs

/-- A `Sleep` is there until it is dropped. -/
theorem Next.sleep_alive (h : Next s l s') {loc : Loc} (hs : s.ts.sleeps loc ≠ none)
    (hl : l ≠ .user (.dropSleep loc)) : s'.ts.sleeps loc ≠ none := by
  have update : ∀ {loc' : Loc} {sl : Sleep}, Function.update s.ts.sleeps loc' (some sl) loc ≠ none := by
    intro loc' sl
    by_cases hne : loc = loc'
    · subst hne; simp
    · simpa [hne] using hs
  cases h with
  | newSleep loc' deadline hu hs' => exact update
  | pollSleep loc' sl w ts hu hs' hc hw hp =>
    by_cases hne : loc = loc'
    · subst hne
      exact TimeScheduler.pollState_self hp
    · rw [TimeScheduler.pollState_other hp hne]
      exact hs
  | dropSleep loc' hu hc hs' =>
    have hne : loc ≠ loc' := fun h0 => hl (by rw [h0])
    simpa [TimeScheduler.dropSleep, hne] using hs
  | wakeTask order rest loc' t j q e hk hp hs' he => exact update
  | wakeCustom order rest loc' t n q hk hp hs' => exact update
  | _ => exact hs

theorem Course.step (hC : s.Course id T D bed) (hS : s.Spared id) (hB : s.Base) (hup : s.Up) (h : Next s l s')
    (hup' : s'.Up)
    (hl : l ≠ .user (.abort id)) (hbed : KeepsOff id bed l) (hp : s.ex.polling ≠ some id) :
    s'.Course id T D bed := by
  obtain ⟨-, hready⟩ := hS.step hB h hup' hl hp
  cases hC with
  | unpolled hD hr =>
    have hr := hr.resolve_right hp
    exact .unpolled (by rw [h.now_of_ready hB hup.2 hr]; exact hD) (hready hr)
  | waiting loc hD hs =>
    rcases h.sleep_keep hB hbed.leaves hs with h0 | ⟨w, h0, hn, hs', hw⟩
    · exact .waiting loc hD h0
    · cases h0
      exact .woken loc hD hn hs' (Or.inl (Exec.wakeByRef_ready hS.live (hw id rfl)))
  | woken loc hD hn hs hr =>
    have hr := hr.resolve_right hp
    rcases h.sleep_keep hB hbed.leaves hs with h0 | ⟨w, h0, -⟩
    · exact .woken loc hD ((h.now_of_ready hB hup.2 hr).trans hn) h0 (hready hr)
    · cases h0

/-- The future of `id` is on its way, and it is polled under nothing but the loop. -/
structure OnCourse (s : SimCx V Q) (id : Id) (T D : Instant) (bed : Option Loc) : Prop where
  spared : s.Spared id
  course : s.Course id T D bed
  poll : s.ex.polling = some id → ∃ c, s.stack = [.poll c, .loop]

theorem OnCourse.step (hO : s.OnCourse id T D bed) (hB : s.Base) (hup : s.Up) (h : Next s l s') (hup' : s'.Up)
    (hl : KeepsOff id bed l) (hp : s.ex.polling ≠ some id) : s'.OnCourse id T D bed := by
  have hne : l ≠ .user (.abort id) := by
    rintro rfl
    exact hl rfl
  refine ⟨(hO.spared.step hB h hup' hne hp).1, hO.course.step hO.spared hB hup h hup' hne hl hp, fun hp' => ?_⟩
  rcases h.act hB with he | he
  · rw [he] at hp'
    exact absurd hp' hp
  · have hpoll := (he.polling_of hp').resolve_left hp
    have hpolls : polls id s'.ex.log ≠ polls id s.ex.log := by rw [hpoll]; exact Nat.succ_ne_self _
    obtain ⟨-, ⟨caller, rest, hk⟩, -⟩ := h.poll_frame hB hpolls
    have hS := (h.base hB).shape
    rw [hk] at hS
    exact ⟨caller, by rw [hk, NetCx.poll_rest hS]⟩

/-- The clock stops at `D`. -/
theorem OnCourse.now_le_step (hO : s.OnCourse id T D bed) (hB : s.Base) (hup : s.Up) (h : Next s l s') :
    s'.ts.now ≤ D := by
  rcases h.clock with ⟨-, hn, -⟩ | ⟨dt, hadv⟩
  · rw [hn]
    exact hO.course.now_le hB
  · obtain ⟨rest, hk, -⟩ := hadv.stack
    have hr : ¬ (s.ex.state id = .ready ∨ s.ex.polling = some id) := by
      rintro (hr | hp)
      · have hn := h.now_of_ready hB hup.2 hr
        exact absurd (hadv.pos hB) (by rw [hn]; exact lt_irrefl _)
      · obtain ⟨c, hk'⟩ := hO.poll hp
        rw [hk] at hk'
        cases hk'
    cases hO.course with
    | unpolled hD h0 => exact absurd h0 hr
    | woken loc hD hn hs h0 => exact absurd h0 hr
    | waiting loc hD hs =>
      rw [hD]
      exact hadv.least.2 loc T ((hB.sleep.due_iff loc T).mpr ⟨_, hs⟩)

/-- A task that is spawned on `NodeId::INIT` is on its way. -/
theorem onCourse_spawn (hB : s.Base) (h : s.spawnTaskOnNode initNode = .ok (id, s')) (T : Instant) :
    s'.OnCourse id T (max s.ts.now T) none := by
  obtain ⟨-, -, hid, -, rfl⟩ := spawnTaskOnNode_ok hB.exec h
  have hfresh : s.ex.state id = .taskEnd := hB.exec.fresh id (hid ▸ Nat.lt_succ_self _)
  refine ⟨⟨by simp [TaskState.live], by simp [Exec.node_insertTask], fun g hg => ?_⟩,
    .unpolled rfl (Or.inl (by simp)), fun hp => ?_⟩
  · obtain ⟨top, rest, hk⟩ := List.append_of_mem hg
    have hfit : g.Fits s.ex (nodeUnder s.currentNode top) := Scoped.fits (hk ▸ hB.frames)
    cases g with
    | discard j post c =>
      rintro rfl
      exact hfit.1 hfresh
    | stopNode ids c => exact fun hm => (hfit id hm).1 hfresh
    | _ => trivial
  · have hp' : s.ex.polling = some id := hp
    have hst := hB.exec.polling_state hp'
    rw [hfresh] at hst
    simp at hst

/-- A poll that returns `Poll::Pending` puts the future of a live task back. -/
theorem step_pending (hB : s.Base) {c : NodeId} (hk : s.stack = [.poll c, .loop]) (hp : s.ex.polling = some id)
    (hl : (s.ex.state id).live = true) (h : s.step (.user (.done none)) = .ok s') : s' = { s with
      ex := ((s.ex.note (.ret id none)).setEntry id (some ⟨some ⟨id, true⟩⟩)).setRunning none
      currentNode := c
      stack := [.loop] } := by
  simp only [step, hk, Frame.isUser, if_true, userOp, done] at h
  obtain ⟨-, j, hr, h⟩ := endPoll_ok hB.exec h
  obtain rfl : j = id := by
    rw [Exec.polling, hr] at hp
    exact Option.some.inj hp
  rcases h with ⟨-, -, rfl⟩ | ⟨hd | hd, -⟩
  · rfl
  · rw [hd] at hl
    cases hl
  · cases hd

end SimCx

end Refault
