import Refault.Flights
import Refault.Sockets

/-!
# Refault.Delivery — `perfect_connectivity`

A packet that is sent through `perfect_connectivity` is in the hands of one future of `enqueue`, which is
awaited at the time of the send plus the latency.  That future does not get stuck: `Net` is in its slot
whenever a task is polled, and as long as it sleeps the loop has a deadline to go to.
-/

namespace Refault

namespace SimCx

variable {V Q : Type} [KeyedQueue Q Loc Instant] {b : SimBuilder} {s s' : SimCx V Q} {l : Label V}

/-! ## Calls that succeed -/

omit [KeyedQueue Q Loc Instant] in
/-- A slot is empty only while a frame has its simulator. -/
def Full (s : SimCx V Q) : Prop := ∀ i : ℕ, s.simulators[i]? = some none → i ∈ taken s.stack

theorem Full.step (hF : s.Full) (h : Next s l s') : s'.Full := by
  have keep : s'.simulators = s.simulators → (∀ i ∈ taken s.stack, i ∈ taken s'.stack) →
      s'.Full := fun h1 h2 i hi =>
    h2 i (hF i (h1 ▸ hi))
  -- a simulator is taken out
  have take : ∀ {j : ℕ}, s'.simulators = s.simulators.set j none →
      (∀ i, i ∈ taken s'.stack ↔ i = j ∨ i ∈ taken s.stack) → s'.Full := by
    intro j h1 h2 i hi
    rw [h2]
    rw [h1, List.getElem?_set] at hi
    split_ifs at hi with hj
    · exact Or.inl hj.symm
    · exact Or.inr (hF i hi)
  cases h with
  | withSimulator ty i sim hu hc hs => exact take rfl fun i => by simp [Frame.slot]
  | simsNext order cb len i idx caller rest sim hk hc hs => exact take rfl fun i => by simp [hk, Frame.slot]
  | putBack r j sim rest hk hc hs =>
    have hmem : ∀ i, i ∈ taken s.stack → i = j ∨ i ∈ taken rest := by
      intro i hi
      rcases hk with hk | hk <;> rw [hk] at hi <;> simpa [Frame.slot] using hi
    intro i hi
    dsimp only at hi ⊢
    rw [List.getElem?_set] at hi
    split_ifs at hi with h1 h2
    · cases hi
    · exact (hmem i (hF i hi)).resolve_left (Ne.symm h1)
  | addSimulator ty hu hc hn hf hb =>
    intro i hi
    dsimp only at hi ⊢
    rw [List.getElem?_append] at hi
    split_ifs at hi with h1
    · exact hF i hi
    · rw [List.getElem?_singleton] at hi
      split_ifs at hi
      cases hi
  | dropSim order time rest sim hk hc hs =>
    intro i hi
    have hi' : s.simulators[i]? = some none := by
      rw [List.getElem?_dropLast] at hi
      split_ifs at hi
      exact hi
    simpa [hk, Frame.slot] using hF i hi'
  | doneInit r rest j hk | doneWaker r rest hk | rootReady v caller rest j hk | pollKept caller rest j hk
  | doneDiscard r j post caller rest hk | doneDropSim r rest hk | exhausted order rest hk
  | advance order rest loc next time hk
  | poll order rest j q hk | wakeDone order rest hk | wakeCustom order rest loc t n q hk
  | stopNext order j ids caller rest e hk
  | stopDrop order j ids caller rest hk | stopSims order caller rest hk | simsDone order cb len caller rest hk
  | stopAllRun order n nodes rest nd hk | stopAllSkip order n nodes rest nd hk | stopAllDone order rest hk
  | destroy order rest hk | taken order time rest hk =>
    exact keep rfl fun i hi => by simpa [hk, Frame.slot] using hi
  | pollDropped l caller rest j r e hk =>
    refine keep rfl fun i hi => ?_
    rcases hk with ⟨hk, -⟩ | ⟨v, order, hk, -⟩ <;> simpa [hk, Frame.slot] using hi
  | abort | stop | start | createNode | stopSimulation => exact keep rfl fun i hi => by simpa [Frame.slot] using hi
  | _ => exact keep rfl fun i hi => hi

theorem Reachable.full (hr : Reachable b s) : s.Full :=
  hr.invariant (I := Full) (by simp [Full, install]) fun _ _ _ _ hF h => hF.step h

/-- `SimulatorHandle::with` succeeds under a poll, for a simulator that was registered. -/
theorem Reachable.withSimulator_ok (hr : Reachable b s) (hf : s.ex.finalStopped = false) (hc : s.cell = .free)
    (ht : taken s.stack = []) {ty : SimTy} {i : ℕ} (hi : s.simulatorsByType ty = some i) :
    ∃ s', s.withSimulator ty = .ok s' := by
  have hlt : i < s.simulators.length := (hr.slots.bound ty i hi).resolve_right fun hG => by
    rw [hG.stopped] at hf
    cases hf
  cases hs : s.simulators[i] with
  | none =>
    have hm := hr.full i (by rw [List.getElem?_eq_getElem hlt, hs])
    rw [ht] at hm
    cases hm
  | some sim =>
    refine ⟨{ s with simulators := s.simulators.set i none, stack := .withSim i sim :: s.stack }, ?_⟩
    simp only [withSimulator, borrow, hc, hi, List.getElem?_eq_getElem hlt, hs]
    rfl

section Enabled

variable {f : Frame V} {rest : List (Frame V)} (hk : s.stack = f :: rest) (hu : f.isUser = true)
include hk hu

theorem newSleep_ok {loc : Loc} (hs : s.ts.sleeps loc = none) (d : Instant) :
    s.step (.user (.newSleep loc d)) = .ok { s with ts := s.ts.newSleep loc d } := by
  simp only [step, hk, hu, if_true, userOp, hs]

theorem pollSleep_ok (hc : s.cell = .free) {loc : Loc} {sl : Sleep} (hs : s.ts.sleeps loc = some sl)
    (hsl : sl.state ≠ .taken) {id : Id} (hid : s.ex.state id ≠ .taskEnd) :
    ∃ ts, s.ts.pollState loc sl.deadline (.task id) sl.state = .ok ts ∧
      s.step (.user (.pollSleep loc (.task id))) = .ok { s with ts := ts } := by
  obtain ⟨ts, hts⟩ : ∃ ts, s.ts.pollState loc sl.deadline (.task id) sl.state = .ok ts := by
    cases hst : sl.state with
    | init t =>
      simp only [TimeScheduler.pollState]
      split_ifs <;> exact ⟨_, rfl⟩
    | waiting w | done t => exact ⟨_, rfl⟩
    | taken => exact absurd hst hsl
  refine ⟨ts, hts, ?_⟩
  simp only [step, hk, hu, if_true, userOp, knows, hid, ne_eq, not_false_eq_true, decide_true, pollSleep, hs,
    borrow, hc]
  cases hst : sl.state <;> rw [hst] at hts <;> simp only [hts, call, Except.mapError] <;> rfl

theorem dropSleep_ok (hc : s.cell = .free) {loc : Loc} (hs : s.ts.sleeps loc ≠ none) :
    s.step (.user (.dropSleep loc)) = .ok { s with ts := s.ts.dropSleep loc } := by
  simp only [step, hk, hu, if_true, userOp, hs, if_false, borrow, hc]
  rfl

theorem withSimulator_step {ty : SimTy} (h : s.withSimulator ty = .ok s') :
    s.step (.user (.withSimulator ty)) = .ok s' := by
  simp only [step, hk, hu, if_true, userOp, h]

end Enabled

/-- A poll of a live task can return `Poll::Pending`. -/
theorem pending_ok (hB : s.Base) {c : NodeId} {rest : List (Frame V)} (hk : s.stack = .poll c :: rest)
    (hc : s.cell = .free) {id : Id} (hr : s.ex.running = some ⟨id, true⟩) (hl : (s.ex.state id).live = true) :
    ∃ s', s.step (.user (.done none)) = .ok s' := by
  rcases Exec.pollEnd_pending hB.exec hr with ⟨-, hp⟩ | ⟨hs, -⟩
  · simp only [step, hk, Frame.isUser, if_true, userOp, done, endPoll, borrow, hc, hr, hp, call]
    exact ⟨_, rfl⟩
  · rw [hs] at hl
    cases hl

/-- The idle loop goes to the least deadline. -/
theorem idle_steps (hB : s.Base) (hC : s.Coherent b) (hk : s.stack = [.loop]) (hq : s.ex.readyQueue = [])
    {loc : Loc} {t : Instant}
    (ht : s.ts.due loc = some t) (order : List Id) :
    ∃ s', s.step (.run order) = .ok s' ∧ s.ts.now < s'.ts.now := by
  have hS := hB.shape
  rw [hk] at hS
  obtain ⟨hc, -, -⟩ := hS.loop_eq
  obtain ⟨⟨loc', next⟩, hp⟩ := KeyedQueue.peek_isSome ht
  have hlt : s.ts.now < next := hB.settled (by rw [hk]; simp) loc' next (KeyedQueue.get_of_peek _ _ _ hp)
  obtain ⟨time, htime, -⟩ := hC.checkedAdd hlt.le
  refine ⟨{ s with
    ex := s.ex.note .exhausted
    events := s.events ++ [.timeAdvanced (next.durationSince s.ts.now)]
    time := time
    ts := s.ts.advanceTo next
    cell := .borrowed
    stack := .waking :: .loop :: [] }, ?_, hlt⟩
  simp only [step, runtime, hk, runLoop, borrow, hc, hq]
  show (if s.ex.finalStopped = true then s.idle [] else s.idle []) = _
  rw [ite_self]
  simp only [idle, hp, htime]

end SimCx

namespace Net

variable {P : Type} {n n' : Net P}

/-- The attempts to deliver the packet `rc`. -/
def attemptsOf (n : Net P) (rc : PacketRc) : List Attempt := n.attempts.filter (·.msg = .packet rc)

theorem Act.packetCount_le (h : Act n n') : n.packetCount ≤ n'.packetCount := by
  rcases h.packets with ⟨-, hc⟩ | ⟨src, dst, packet, level, rfl⟩
  · exact hc.ge
  · exact Nat.le_succ _

theorem Typed.lt (hT : n.Typed) {key : Key} {rc : PacketRc} (h : n.Fits key (.packet rc)) :
    rc < n.packetCount := by
  obtain ⟨w, hw, -⟩ := h rc rfl
  by_contra hle
  rw [hT.known rc (Nat.le_of_not_lt hle)] at hw
  cases hw

/-- A packet that user code has let go of does not come back to it. -/
theorem Act.released (h : Act n n') {rc : PacketRc} (hlt : rc < n.packetCount) (h0 : n.held rc = 0) :
    rc < n'.packetCount ∧ n'.held rc = 0 := by
  have deliver_held : ∀ id now d, (n.deliver id now d).held = n.held := fun id now d => by
    unfold Net.deliver
    dsimp only
    split
    · exact lose_held _ _ _
    · split_ifs
      · rfl
      · exact lose_held _ _ _
  have letGo : ∀ i, (n.letGo i).held rc = 0 := fun i => by
    by_cases hi : rc = i
    · subst hi; simp [h0]
    · simp [hi, h0]
  rcases h.packets with ⟨-, hc⟩ | ⟨src, dst, packet, level, rfl⟩
  · refine ⟨hc ▸ hlt, ?_⟩
    cases h with
    | newPacket src dst packet level => simp [Net.newPacket] at hc
    | dropPacket i hi | enqueuePacket id t i w hi hp hid => exact letGo i
    | deliver id now d hd => rw [deliver_held]; exact h0
    | abortDelivery id d hd => rw [Net.abortDelivery, lose_held]; exact h0
    | openSocket key r n' hd ho =>
      unfold Net.openSocket at ho
      split at ho
      · cases ho
      · simp only [Except.ok.injEq, Prod.mk.injEq] at ho
        obtain ⟨rfl, rfl⟩ := ho
        exact h0
    | dropSocket r sock n' hs hd =>
      unfold Net.dropSocket at hd
      split_ifs at hd
      cases hd
      rw [collect_held]
      exact h0
    | dropReceive r hr => rw [Net.dropReceive, collect_held]; exact h0
    | pollReceive r key clone n' hr hk hp =>
      rw [NetCx.pollReceive_frame (·.held) (fun _ _ => rfl) (fun _ _ _ => rfl) (fun _ _ => rfl)
        (fun _ => collect_held _ _) hp]
      exact h0
    | drain r key hk =>
      unfold Net.drain
      split
      · exact h0
      · rw [lose_held]; exact h0
    | _ => exact h0
  · have hne : rc ≠ n.packetCount := Nat.ne_of_lt hlt
    exact ⟨Nat.lt_succ_of_lt hlt, by simp [Net.newPacket, hne, h0]⟩

end Net

namespace NetCx

variable {V Q P : Type} [KeyedQueue Q Loc Instant] {f : SendFunction} {b : SimBuilder} {s s' : NetCx V Q P}
  {l : NetLabel V P} {id : Id} {d : Delivery} {D : Instant}

/-! ## The future of `enqueue` does not get stuck -/

theorem pollDelivery_steps (hr : SimCx.Reachable b s.sim) (hup : s.sim.Up) {c : NodeId}
    (hk : s.sim.stack = [.poll c, .loop])
    (hc : s.sim.cell = .free) (ht : s.sim.ex.running = some ⟨id, true⟩) (hl : (s.sim.ex.state id).live = true)
    {i : ℕ}
    (hi : s.sim.simulatorsByType netTy = some i) {loc : Loc} {sl : Sleep} (hs : s.sim.ts.sleeps loc = some sl)
    (hsl : sl.state ≠ .taken) (d : Delivery) : ∃ s', s.pollDelivery id d loc = .ok s' := by
  have hend : s.sim.ex.state id ≠ .taskEnd := fun h0 => by rw [h0] at hl; cases hl
  obtain ⟨ts, hts, h1⟩ := SimCx.pollSleep_ok hk rfl hc hs hsl hend
  have hr₁ := hr.tail h1
  simp only [pollDelivery, h1, inSim, Except.mapError, bind, Except.bind]
  split
  · obtain ⟨sim, h2⟩ := SimCx.pending_ok hr₁.base hk hc ht hl
    rw [h2]
    exact ⟨_, rfl⟩
  · have h2 := SimCx.dropSleep_ok (s := { s.sim with ts := ts }) hk rfl hc (TimeScheduler.pollState_self hts)
    have hr₂ := hr₁.tail h2
    obtain ⟨sim, h3⟩ := hr₂.withSimulator_ok hup.2 hc (by simp [hk, Frame.slot]) hi
    have h4 := SimCx.withSimulator_step (s := { s.sim with ts := ts.dropSleep loc }) hk rfl h3
    rw [h2]
    dsimp only [inSim, Except.mapError]
    show ∃ s', ((inSim (SimCx.step _ _)) >>= _) = Except.ok s'
    rw [h4]
    exact ⟨_, rfl⟩

theorem Awaited.poll_ok (hA : s.Awaited id d D) (hr : Reachable f b s) (hup : s.sim.Up) {i : ℕ}
    (hi : s.sim.simulatorsByType netTy = some i) (hp : s.sim.ex.polling = some id) (loc : Loc) (v : V)
    (hfree : s.phase id = some .unpolled → s.sim.ts.sleeps loc = none) :
    ∃ s', s.step f (.delivery loc v) = .ok s' := by
  obtain ⟨bed, hph, hO⟩ := hA.course
  have hR := hr.sim
  have hB := hR.base
  obtain ⟨c, hk⟩ := hO.poll hp
  obtain ⟨t, ht, htid⟩ := Option.map_eq_some_iff.mp hp
  obtain ⟨j, snd⟩ := t
  obtain rfl : snd = true := (hB.exec.running _ ht).1
  obtain rfl : j = id := htid
  have hc : s.sim.cell = .free := by
    have hS := hB.shape
    rw [hk] at hS
    generalize s.sim.cell = cell, s.sim.ex.running.isSome = r at hS ⊢
    cases hS with
    | free => rfl
  have hflight := hA.flight
  cases hO.course with
  | unpolled hD hready =>
    have hph : s.phase j = some .unpolled := hph
    have h1 := SimCx.newSleep_ok hk rfl (hfree hph) d.at_
    have hs₁ : (s.sim.ts.newSleep loc d.at_).sleeps loc = some ⟨d.at_, .init d.at_⟩ := by
      simp [TimeScheduler.newSleep]
    obtain ⟨s', h2⟩ := pollDelivery_steps (s := { s with
        sim := { s.sim with ts := s.sim.ts.newSleep loc d.at_ }
        netSleep := Function.update s.netSleep loc true })
          (hR.tail h1) hup hk hc ht hO.spared.live hi hs₁ (by rintro ⟨⟩) d
    refine ⟨s', ?_⟩
    simp only [step, delivery, hk, ht, hph, hflight]
    rw [h1]
    exact h2
  | waiting loc' hD hs =>
    have hph : s.phase j = some (.sleeping loc') := hph
    obtain ⟨s', h2⟩ := pollDelivery_steps hR hup hk hc ht hO.spared.live hi hs (by rintro ⟨⟩) d
    refine ⟨s', ?_⟩
    simp only [step, delivery, hk, ht, hph, hflight, h2]
  | woken loc' hD hn hs hready =>
    have hph : s.phase j = some (.sleeping loc') := hph
    obtain ⟨s', h2⟩ := pollDelivery_steps hR hup hk hc ht hO.spared.live hi hs (by rintro ⟨⟩) d
    refine ⟨s', ?_⟩
    simp only [step, delivery, hk, ht, hph, hflight, h2]

/-- When the loop has nothing to poll, it goes to a time that is not past what is awaited. -/
theorem Awaited.idle_ok (hA : s.Awaited id d D) (hr : Reachable f b s) (hup : s.sim.Up)
    (hk : s.sim.stack = [.loop]) (hq : s.sim.ex.readyQueue = []) :
    s.now < D ∧ ∀ order, ∃ s', s.step f (.sim (.run order)) = .ok s' ∧ s.now < s'.now ∧ s'.now ≤ D := by
  obtain ⟨bed, hph, hO⟩ := hA.course
  have hL := hr.linked
  have hB := hL.reach.base
  have hready : ¬ (s.sim.ex.state id = .ready ∨ s.sim.ex.polling = some id) := by
    rintro (h0 | h0)
    · have hm : id ∈ s.sim.ex.readyQueue := by rw [hB.exec.queued, h0]; rfl
      rw [hq] at hm
      cases hm
    · obtain ⟨c, hk'⟩ := hO.poll h0
      rw [hk] at hk'
      cases hk'
  cases hO.course with
  | unpolled hD h0 => exact absurd h0 hready
  | woken loc hD hn hs h0 => exact absurd h0 hready
  | waiting loc hD hs =>
    have hdue : s.sim.ts.due loc = some d.at_ := (hB.sleep.due_iff loc _).mpr ⟨_, hs⟩
    refine ⟨?_, fun order => ?_⟩
    · rw [hL.now_eq, hD]
      exact hB.settled (by rw [hk]; simp) loc _ hdue
    · obtain ⟨sim, hst, hlt⟩ := SimCx.idle_steps hB hL.reach.coherent hk hq hdue order
      have hst' : s.step f (.sim (.run order)) =
          .ok { s with sim := sim, net := if s.dropsNet then s.net.dropNet else s.net } := by
        simp only [step, simStep, hst]
        rfl
      refine ⟨_, hst', ?_, hA.now_le_step hL hup hst'⟩
      rw [(hL.step hst').now_eq, hL.now_eq]
      exact hlt

/-! ## Exactly once, and on time -/

/-- What is handed to `enqueue` comes from user code that has `Net`. -/
theorem hasNet_of_phase {op : NetOp P} (h : s.step f (.user op) = .ok s') (hp : s'.phase ≠ s.phase) :
    s.hasNet = true := by
  simp only [step] at h
  split_ifs at h with hu
  -- the other calls leave the futures alone
  have other : (∀ t, s.userOp f op = .ok t → t.phase = s.phase) → s.hasNet = true := fun h0 => absurd (h0 s' h) hp
  cases op with
  | send port dst packet level | enqueuePacket t rc | enqueueError t dst ty kind =>
    simp only [userOp] at h
    split_ifs at h with hn
    exact hn
  | socketSend r dst packet level =>
    simp only [userOp] at h
    split at h
    · cases h
    · split_ifs at h with hn
      exact hn
  | openSocket port ty owner =>
    refine other fun t ht => ?_
    simp only [userOp] at ht
    split_ifs at ht
    obtain ⟨-, ht⟩ := withNet_bind.mp ht
    split at ht <;> cases ht <;> rfl
  | dropSocket r =>
    refine other fun t ht => ?_
    simp only [userOp, dropSocket] at ht
    split at ht
    · cases ht
    · obtain ⟨-, ht⟩ := withNet_bind.mp ht
      obtain ⟨net, -, ht⟩ := inNet_bind.mp ht
      cases ht
      rfl
  | pollReceive r clone =>
    refine other fun t ht => ?_
    simp only [userOp] at ht
    split at ht
    · cases ht
    · split_ifs at ht
      obtain ⟨net, -, ht⟩ := inNet_bind.mp ht
      cases ht
      rfl
  | moveSocket | receive | dropReceive | clonePacket | dropPacket =>
    refine other fun t ht => ?_
    simp only [userOp] at ht
    split_ifs at ht
    cases ht
    rfl
  | newPacket => exact other fun t ht => by cases ht; rfl

/-- Only a call of user code spawns a future of `enqueue`. -/
theorem Next.spawned (h : Next f s l s') (h0 : s.phase id = none) (h1 : s'.phase id = some .unpolled) :
    ∃ op, l = .user op := by
  have same : s'.phase = s.phase → ∃ op, l = .user op := fun hp => by rw [hp, h0] at h1; cases h1
  have other : ∀ {i : Id} {ph : Option DeliveryPhase}, s'.phase = Function.update s.phase i ph →
      ph ≠ some .unpolled → ∃ op, l = .user op := by
    intro i ph hp hph
    rw [hp] at h1
    by_cases hi : id = i
    · exact absurd (by simpa [hi] using h1) hph
    · rw [Function.update_of_ne hi, h0] at h1
      cases h1
  cases h with
  | sim | run | dropNet | drain | returns => exact same rfl
  | firstPoll loc v caller rest t d sim₁ sim₂ _ hk hr hp hd h1 h2 h
  | nextPoll l loc v caller rest t d sim₂ _ hk hr hp hd h2 h =>
    rcases h with h | h
    · exact other (by rw [h.eq]) (by rintro ⟨⟩)
    · exact other (by rw [h.eq]) (by rintro ⟨⟩)
  | discard l v i post caller rest ph _ hk hp hph h | discardSleep l loc v i post caller rest sim _ hk hp hst h =>
    exact other (by rw [h]) (by rintro ⟨⟩)
  | _ => exact ⟨_, rfl⟩

theorem Reachable.registered (hr : Reachable f b s) (hn : s.hasNet = true) :
    ∃ i, s.sim.simulatorsByType netTy = some i := by
  simp only [hasNet, Bool.and_eq_true, List.any_eq_true] at hn
  obtain ⟨⟨g, hg, h0⟩, -⟩ := hn
  cases g with
  | withSim i ty =>
    obtain rfl : ty = netTy := by simpa using h0
    exact ⟨i, hr.sim.slots.out i netTy (Or.inr hg)⟩
  | _ => cases h0

theorem registered_steps (hB : s.sim.Base) (h : Machine.Steps SimCx.step s.sim s'.sim) {i : ℕ}
    (hi : s.sim.simulatorsByType netTy = some i) : s'.sim.simulatorsByType netTy = some i :=
  h.inv_of (J := SimCx.Base) (I := fun m => m.simulatorsByType netTy = some i) (fun _ _ _ => SimCx.step_base)
    (fun _ _ _ hm hi h => (SimCx.step_next hm h).byType hi) hB hi

/-- The message of `d` is in the hands of the future of `id`, for which the clock waits: it does not get stuck
when it is polled, and the loop goes on to a time that is not past `D`. -/
structure UnderWay (f : SendFunction) (s : NetCx V Q P) (id : Id) (d : Delivery) (D : Instant) : Prop where
  now_le : s.now ≤ D
  flight : s.net.inFlight id = some d
  unmade : s.net.attemptsBy id = []
  poll : s.sim.ex.polling = some id → ∀ loc v, s.sim.ts.sleeps loc = none →
    ∃ s', s.step f (.delivery loc v) = .ok s'
  idle : s.sim.stack = [.loop] → s.sim.ex.readyQueue = [] →
    s.now < D ∧ ∀ order, ∃ s', s.step f (.sim (.run order)) = .ok s' ∧ s.now < s'.now ∧ s'.now ≤ D

/-- A message that is handed to `Inboxes::enqueue` is awaited from then on. -/
theorem Reachable.awaited {s₁ : NetCx V Q P} (hr : Reachable f b s) (hst : s.step f l = .ok s₁)
    (h0 : s.net.inFlight id = none) (hd : s₁.net.inFlight id = some d) :
    s₁.Awaited id d (max s.now d.at_) ∧ ∃ j, s₁.sim.simulatorsByType netTy = some j := by
  have hL := hr.linked
  have hn := step_next hst
  cases hn.flight hr.beds with
  | enqueue i d' hsp hmsg hin hph hsl hatt =>
    obtain rfl : id = i := by
      by_contra hne
      rw [hin, Function.update_of_ne hne, h0] at hd
      cases hd
    refine ⟨awaited_enqueue hL hr.beds hsp hph hd (Net.attemptsBy_congr hatt id), ?_⟩
    -- `Net` is registered
    have hnone := (hL.fresh hsp).1
    have hsome : s₁.phase id = some .unpolled := by rw [hph]; exact Function.update_self ..
    obtain ⟨op, rfl⟩ := hn.spawned hnone hsome
    have hnet := hasNet_of_phase hst fun h1 => by
      rw [h1, hnone] at hsome
      cases hsome
    obtain ⟨j, hj⟩ := hr.registered hnet
    exact ⟨j, registered_steps hL.reach.base hn.sim_steps hj⟩
  | same hin => rw [hin, h0] at hd; cases hd
  | wait i loc hp hl hin => rw [hin, h0] at hd; cases hd
  | deliver i d' loc hp hl hd' hnet =>
    rw [hnet, deliver_inFlight] at hd
    by_cases hid : id = i
    · simp [hid] at hd
    · rw [Function.update_of_ne hid, h0] at hd
      cases hd
  | gone i post c rest hk hin =>
    rw [hin] at hd
    by_cases hid : id = i
    · simp [hid] at hd
    · rw [Function.update_of_ne hid, h0] at hd
      cases hd

/-- What is awaited is under way, when `Net` is registered. -/
theorem Awaited.underWay (hA : s'.Awaited id d D) (hr : Reachable f b s)
    (hj : ∃ j, s.sim.simulatorsByType netTy = some j) {ls : List (NetLabel V P)}
    (hrun : Machine.run (step f) s ls = .ok s') (hup : UpTo f D s ls) : UnderWay f s' id d D := by
  have hr' : Reachable f b s' := hr.trans ⟨ls, hrun⟩
  obtain ⟨j, hj⟩ := hj
  have hj' := registered_steps hr.linked.reach.base (steps_sim ⟨ls, hrun⟩) hj
  have hle := hA.now_le hr'.linked
  have hup' := hup ls [] s' (List.append_nil ls).symm hrun hle
  exact ⟨hle, hA.flight, hA.unmade, fun hp loc v hfree => hA.poll_ok hr' hup' hj' hp loc v fun _ => hfree,
    fun hk hq => hA.idle_ok hr' hup' hk hq⟩

/-- **Exactly once, and on time.**  A message that is handed to `Inboxes::enqueue` for some instant is under
way until the clock reads this instant (or does not change, if that has passed), and then there is one attempt
to deliver it.  It goes to the end of the inbox that is registered for its key at that moment, if this holds
fewer than 8 messages. -/
theorem enqueued_on_time {s₁ : NetCx V Q P} (hr : Reachable f b s) (hst : s.step f l = .ok s₁)
    (h0 : s.net.inFlight id = none)
    (hd : s₁.net.inFlight id = some d) {ls : List (NetLabel V P)} (hrun : Machine.run (step f) s₁ ls = .ok s')
    (hup : UpTo f (max s.now d.at_) s₁ ls) :
    UnderWay f s' id d (max s.now d.at_) ∨ DeliveredAt f s₁ ls s' id d (max s.now d.at_) := by
  have hr₁ := hr.tail hst
  obtain ⟨hA, hj⟩ := hr.awaited hst h0 hd
  exact (hA.run hr₁ hrun hup).imp_left fun hA' => hA'.underWay hr₁ hj hrun hup

/-- The root task opens a socket and takes `Net`. -/
def openedRun : List (NetLabel ℕ ℕ) :=
  [.sim (.user (.addSimulator netTy)), .sim (.user (.done none)), .sim (.run []), .user (.openSocket 7 3 (some 1)),
    .sim (.user (.withSimulator netTy))]

/-- The root task waits, and time goes on to the attempt. -/
def laterRun : List (NetLabel ℕ ℕ) :=
  [.sim (.user (.done none)), .sim (.user (.done none)), .sim (.run []), .delivery 0 0, .sim (.run []),
    .sim (.run []), .sim (.run []), .sim (.run []), .delivery 0 0]

/-- An error for the socket after five seconds. -/
theorem enqueued_on_time_error : ∃ s₁ s' : NetCx ℕ (SwapArray Loc Instant) ℕ,
    Machine.run (step .custom) s₁ laterRun = .ok s' ∧
      DeliveredAt .custom s₁ laterRun s' 2
      ⟨SimCx.fiveSeconds, (⟨0, 7⟩, 3), .error .connectionReset⟩ SimCx.fiveSeconds := by
  obtain ⟨s, hs, hq⟩ : ∃ s : NetCx ℕ (SwapArray Loc Instant) ℕ,
      Machine.run (step .custom) (install SimCx.epoch) openedRun = .ok s ∧
      (s.net.inFlight 2, decide (s.now ≤ SimCx.fiveSeconds)) = (none, true) :=
        Machine.exists_of_run (by decide +kernel)
  obtain ⟨s', hs', hq'⟩ : ∃ s' : NetCx ℕ (SwapArray Loc Instant) ℕ, Machine.run (step .custom)
      (install SimCx.epoch)
      (openedRun ++ (.user (.enqueueError SimCx.fiveSeconds ⟨0, 7⟩ 3 .connectionReset) :: laterRun)) = .ok s' ∧
      s'.net.inFlight 2 = none := Machine.exists_of_run (by decide +kernel)
  obtain ⟨s₁, hs₁, hq₁⟩ : ∃ s₁ : NetCx ℕ (SwapArray Loc Instant) ℕ, Machine.run (step .custom)
      (install SimCx.epoch)
      (openedRun ++ [.user (.enqueueError SimCx.fiveSeconds ⟨0, 7⟩ 3 .connectionReset)]) = .ok s₁ ∧
      (s₁.net.inFlight 2, s₁.upTo .custom SimCx.fiveSeconds laterRun) =
        (some ⟨SimCx.fiveSeconds, (⟨0, 7⟩, 3), .error .connectionReset⟩, true) :=
          Machine.exists_of_run (by decide +kernel)
  obtain ⟨m, h1, h2⟩ := Machine.run_append.mp hs₁
  obtain rfl : m = s := Except.ok.inj (h1.symm.trans hs)
  have hst := Machine.run_single.mp h2
  obtain ⟨m', h3, h4⟩ := Machine.run_append.mp hs'
  obtain rfl : m' = m := Except.ok.inj (h3.symm.trans hs)
  obtain ⟨k, h5, hrun⟩ := Machine.run_cons.mp h4
  obtain rfl : k = s₁ := Except.ok.inj (h5.symm.trans hst)
  simp only [Prod.mk.injEq, decide_eq_true_eq] at hq hq₁
  have hmax : max m'.now SimCx.fiveSeconds = SimCx.fiveSeconds := max_eq_right hq.2
  have h := enqueued_on_time ⟨_, hs⟩ hst hq.1 hq₁.1 hrun (by rw [hmax]; exact .of_upTo hq₁.2)
  rw [hmax] at h
  refine ⟨k, s', hrun, h.resolve_left fun hU => ?_⟩
  rw [hU.flight] at hq'
  cases hq'

/-! ## `perfect_connectivity` -/

/-- No future but that of `id` has the packet `rc`, or had it, and user code has none of it. -/
structure Sole (n : Net P) (rc : PacketRc) (id : Id) : Prop where
  made : rc < n.packetCount
  held : n.held rc = 0
  flight : ∀ i d, n.inFlight i = some d → d.msg = .packet rc → i = id
  attempt : ∀ a ∈ n.attempts, a.msg = .packet rc → a.id = id

/-- A packet that user code has let go of does not come back to it. -/
theorem Next.released (h : Next f s l s') (hL : s.Linked b) {rc : PacketRc} (hlt : rc < s.net.packetCount)
    (h0 : s.net.held rc = 0) : rc < s'.net.packetCount ∧ s'.net.held rc = 0 := by
  rcases h.acts hL with ha | ⟨i, rfl, hi⟩
  · generalize s'.net = n at ha ⊢
    induction ha with
    | refl => exact ⟨hlt, h0⟩
    | tail _ h ih => exact h.released ih.1 ih.2
  · have hpos : 0 < s.net.held i := by
      cases h with
      | clonePacket _ hu h1 => exact h1
      | sendCustom | sendPerfect => exact absurd (congrArg Net.packetCount hi) (Nat.succ_ne_self _)
    have hne : rc ≠ i := by
      rintro rfl
      exact absurd h0 (Nat.pos_iff_ne_zero.mp hpos)
    rw [hi]
    exact ⟨hlt, by simpa [Net.clonePacket, hne] using h0⟩

theorem Next.packetCount_le (h : Next f s l s') (hL : s.Linked b) : s.net.packetCount ≤ s'.net.packetCount := by
  rcases h.acts hL with ha | ⟨i, -, hi⟩
  · generalize s'.net = n at ha ⊢
    induction ha with
    | refl => exact le_rfl
    | tail _ h ih => exact ih.trans h.packetCount_le
  · rw [hi]
    exact le_rfl

omit [KeyedQueue Q Loc Instant] in
/-- The packets of the attempts made were there. -/
def Tried (s : NetCx V Q P) : Prop := ∀ a ∈ s.net.attempts, ∀ rc, a.msg = .packet rc → rc < s.net.packetCount

theorem Tried.step (hT : s.Tried) (hr : Reachable f b s) (h : step f s l = .ok s') : s'.Tried := by
  have hn := step_next h
  have hle := hn.packetCount_le hr.linked
  have keep : s'.net.attempts = s.net.attempts → s'.Tried := fun h0 a ha rc hrc =>
    (hT a (h0 ▸ ha) rc hrc).trans_le hle
  cases hn.flight hr.beds with
  | same hin hph hsl hatt | wait i loc hp hl hin hph hsl hatt | enqueue i d hsp hmsg hin hph hsl hatt
  | gone i post c rest hk hin hph hsl hatt => exact keep hatt
  | deliver i d loc hp hl hd hnet hph hsl =>
    intro a ha rc hrc
    rw [hnet, Net.attempts_deliver] at ha
    rcases List.mem_append.mp ha with ha | ha
    · exact (hT a ha rc hrc).trans_le hle
    · obtain rfl := List.mem_singleton.mp ha
      have hfit := hr.linked.typed.inFlight i d hd
      rw [show d.msg = .packet rc from hrc] at hfit
      exact (hr.linked.typed.lt hfit).trans_le hle

theorem Reachable.tried (hr : Reachable f b s) : s.Tried :=
  hr.induct (P := Tried) (fun a h => by cases h) fun _ _ _ hm hT h => hT.step hm h

/-- A new packet that is enqueued at once is with one future. -/
theorem sole_sent (hr : Reachable f b s) (src dst : Addr) (packet : Packet P) (level : ServiceLevel) (id : Id)
    (t : Instant) :
    Sole (((s.net.newPacket src dst packet level).2.note
      (.sent s.net.packetCount s.now)).enqueuePacket id t s.net.packetCount
      (.new src dst packet level)) s.net.packetCount id where
  made := Nat.lt_succ_self _
  held := by simp [Net.enqueuePacket, Net.newPacket]
  flight i d hi hd := by
    by_contra hne
    have hi' : s.net.inFlight i = some d := by simpa [Net.enqueuePacket, Net.newPacket, hne] using hi
    have hfit := hr.linked.typed.inFlight i d hi'
    rw [hd] at hfit
    exact lt_irrefl _ (hr.linked.typed.lt hfit)
  attempt a ha hd := by
    rw [Net.enqueuePacket, Net.attempts_quiet _ (by rintro _ _ _ _ ⟨⟩)] at ha
    have ha' : a ∈ ((s.net.newPacket src dst packet level).2.note (.sent s.net.packetCount s.now)).attempts := ha
    rw [Net.attempts_quiet _ (by rintro _ _ _ _ ⟨⟩)] at ha'
    exact absurd (hr.tried a ha' _ hd) (lt_irrefl _)

theorem Sole.step {rc : PacketRc} (hS : Sole s.net rc id) (hr : Reachable f b s) (h : step f s l = .ok s') :
    Sole s'.net rc id := by
  have hn := step_next h
  obtain ⟨hmade, hheld⟩ := hn.released hr.linked hS.made hS.held
  have keep : (∀ i d, s'.net.inFlight i = some d → d.msg = .packet rc → i = id) →
      s'.net.attempts = s.net.attempts →
      Sole s'.net rc id := fun h1 h2 => ⟨hmade, hheld, h1, fun a ha => hS.attempt a (h2 ▸ ha)⟩
  -- the future of `j` gets `x`
  have flight : ∀ {j : Id} {x : Option Delivery}, s'.net.inFlight = Function.update s.net.inFlight j x →
      (∀ d, x = some d → d.msg ≠ .packet rc) → ∀ i d, s'.net.inFlight i = some d → d.msg = .packet rc →
          i = id := by
    intro j x hx hne i d hi hd
    rw [hx] at hi
    by_cases hij : i = j
    · exact absurd hd (hne d (by simpa [hij] using hi))
    · exact hS.flight i d (by simpa [hij] using hi) hd
  cases hn.flight hr.beds with
  | same hin hph hsl hatt | wait i loc hp hl hin hph hsl hatt => exact keep (by rw [hin]; exact hS.flight) hatt
  | enqueue i d hsp hmsg hin hph hsl hatt =>
    refine keep (flight hin ?_) hatt
    rintro d' hd' hpk
    cases hd'
    rcases hmsg rc hpk with h0 | h0
    · exact absurd hS.held (Nat.pos_iff_ne_zero.mp h0)
    · exact absurd h0 (Nat.ne_of_lt hS.made)
  | gone i post c rest hk hin hph hsl hatt => exact keep (flight hin (by rintro d ⟨⟩)) hatt
  | deliver i d loc hp hl hd hnet hph hsl =>
    refine ⟨hmade, hheld, flight (by rw [hnet, deliver_inFlight]) (by rintro d ⟨⟩), fun a ha hpk => ?_⟩
    rw [hnet, Net.attempts_deliver] at ha
    rcases List.mem_append.mp ha with ha | ha
    · exact hS.attempt a ha hpk
    · obtain rfl := List.mem_singleton.mp ha
      exact hS.flight i d hd hpk

theorem sole_steps {rc : PacketRc} (hr : Reachable f b s) (hS : Sole s.net rc id) {ls : List (NetLabel V P)}
    (hrun : Machine.run (step f) s ls = .ok s') : Sole s'.net rc id :=
  Machine.Steps.induct (P := fun m => Sole m.net rc id) hS (fun _ _ _ hm hS h => hS.step (hr.trans hm) h)
    ⟨ls, hrun⟩

omit [KeyedQueue Q Loc Instant] in
theorem Sole.attemptsOf {n : Net P} {rc : PacketRc} (hS : Sole n rc id)
    (hd : ∀ a ∈ n.attemptsBy id, a.msg = .packet rc) : n.attemptsOf rc = n.attemptsBy id := by
  refine List.filter_congr fun a ha => ?_
  have h0 : a.msg = .packet rc ↔ a.id = id :=
    ⟨hS.attempt a ha, fun hi => hd a (List.mem_filter.mpr ⟨ha, by simpa using hi⟩)⟩
  simp only [h0]

omit [KeyedQueue Q Loc Instant] in
theorem after_eq_ok {t t' : Instant} {d : Duration} (h : after t d = .ok t') : t.checkedAdd d = some t' := by
  unfold after at h
  cases hc : t.checkedAdd d with
  | none => rw [hc] at h; cases h
  | some u => rw [hc] at h; exact congrArg some (Except.ok.inj h)

/-- The calls that send a packet. -/
inductive Sends (dst : Addr) (packet : Packet P) (serviceLevel : ServiceLevel) : NetOp P → Prop
  | send (port : Id) : Sends dst packet serviceLevel (.send port dst packet serviceLevel)
  | socketSend (r : InboxRc) : Sends dst packet serviceLevel (.socketSend r dst packet serviceLevel)

/-- What a send through `perfect_connectivity` does: the packet is new, and with one new future. -/
theorem Reachable.sends {latency : Duration} {op : NetOp P} {dst : Addr} {packet : Packet P}
    {serviceLevel : ServiceLevel} {s₁ : NetCx V Q P} (hr : Reachable (.perfectConnectivity latency) b s)
    (hop : Sends dst packet serviceLevel op) (hst : s.step (.perfectConnectivity latency) (.user op) = .ok s₁) :
    ∃ id t, s.now.checkedAdd latency = some t ∧ .sent s.net.packetCount s.now ∈ s₁.net.log ∧
      s.net.inFlight id = none ∧
      s₁.net.inFlight id = some ⟨t, (dst, packet.packetTypeId), .packet s.net.packetCount⟩ ∧
      Sole s₁.net s.net.packetCount id := by
  obtain ⟨src, hsend⟩ : ∃ src, s.sendWrapped (.perfectConnectivity latency) src dst packet serviceLevel =
      .ok s₁ := by
    simp only [step] at hst
    split_ifs at hst
    cases hop with
    | send port =>
      simp only [userOp] at hst
      split_ifs at hst
      exact ⟨_, hst⟩
    | socketSend r =>
      simp only [userOp] at hst
      split at hst
      · cases hst
      · split_ifs at hst
        exact ⟨_, hst⟩
  unfold sendWrapped at hsend
  split_ifs at hsend
  obtain ⟨t, ht, h⟩ := inNet_bind.mp hsend
  obtain ⟨w, id, sim, hw, -, hsp, hs₁⟩ := enqueuePacket_ok h
  obtain rfl : w = .new src dst packet serviceLevel := by simpa [Net.newPacket, eq_comm] using hw
  have hnet : s₁.net = ((s.net.newPacket src dst packet serviceLevel).2.note
      (.sent s.net.packetCount s.now)).enqueuePacket id t
      s.net.packetCount (.new src dst packet serviceLevel) := by rw [hs₁]; rfl
  refine ⟨id, t, after_eq_ok ht, by rw [hnet]; simp [Net.enqueuePacket], (hr.linked.fresh hsp).2.1, ?_,
    hnet ▸ sole_sent hr src dst packet serviceLevel id t⟩
  rw [hnet]
  simp [Net.enqueuePacket, WrappedPacket.new]

/-- The attempt of the one future that has the packet is the one attempt to deliver it. -/
theorem DeliveredAt.attemptsOf {s₁ : NetCx V Q P} {rc : PacketRc} {t : Instant} {key : Key}
    {ls : List (NetLabel V P)} (hD : DeliveredAt f s₁ ls s' id ⟨t, key, .packet rc⟩ t) (hS : Sole s'.net rc id) :
    ∃ into, s'.net.attemptsOf rc = [⟨id, t, .packet rc, into⟩] := by
  cases hD with
  | mk ls₁ ls₂ l m m' split before attempt after now unmade once buffer =>
    exact ⟨_, by rw [hS.attemptsOf (by rw [once]; simp), once]⟩

/-- A packet that is sent is awaited, or the one attempt to deliver it has been made. -/
theorem Reachable.attempts_sent {latency : Duration} {op : NetOp P} {dst : Addr} {packet : Packet P}
    {serviceLevel : ServiceLevel} {s₁ : NetCx V Q P} (hr : Reachable (.perfectConnectivity latency) b s)
    (hop : Sends dst packet serviceLevel op) (hst : s.step (.perfectConnectivity latency) (.user op) = .ok s₁) :
    ∃ id t, s.now.checkedAdd latency = some t ∧ .sent s.net.packetCount s.now ∈ s₁.net.log ∧
      (∃ j, s₁.sim.simulatorsByType netTy = some j) ∧
      ∀ ls s', Machine.run (step (.perfectConnectivity latency)) s₁ ls = .ok s' →
      UpTo (.perfectConnectivity latency) t s₁ ls →
        s'.Awaited id ⟨t, (dst, packet.packetTypeId), .packet s.net.packetCount⟩ t ∧
          s'.net.attemptsOf s.net.packetCount = [] ∨
        DeliveredAt (.perfectConnectivity latency) s₁ ls s' id
          ⟨t, (dst, packet.packetTypeId), .packet s.net.packetCount⟩ t ∧
          ∃ into, s'.net.attemptsOf s.net.packetCount = [⟨id, t, .packet s.net.packetCount, into⟩] := by
  obtain ⟨id, t, hadd, hsent, h0, hd, hS⟩ := hr.sends hop hst
  obtain ⟨hA, hj⟩ := hr.awaited hst h0 hd
  rw [max_eq_right (Timespec.le_checkedAdd hadd)] at hA
  refine ⟨id, t, hadd, hsent, hj, fun ls s' hrun hup => ?_⟩
  have hS' := sole_steps (hr.tail hst) hS hrun
  rcases hA.run (hr.tail hst) hrun hup with hA' | hD
  · exact Or.inl ⟨hA', by rw [hS'.attemptsOf (by rw [hA'.unmade]; simp), hA'.unmade]⟩
  · exact Or.inr ⟨hD, hD.attemptsOf hS'⟩

/-- **`perfect_connectivity` delivers exactly once and on time.**  A packet that is sent when the clock reads
`s.now` is under way until it reads `t`, which is that and the latency, and then there is one attempt to
deliver it. -/
theorem perfect_connectivity_on_time {latency : Duration} {op : NetOp P} {dst : Addr} {packet : Packet P}
    {serviceLevel : ServiceLevel}
    {s₁ : NetCx V Q P} (hr : Reachable (.perfectConnectivity latency) b s) (hop : Sends dst packet serviceLevel op)
    (hst : s.step (.perfectConnectivity latency) (.user op) = .ok s₁) :
    ∃ id t, s.now.checkedAdd latency = some t ∧ .sent s.net.packetCount s.now ∈ s₁.net.log ∧
      ∀ ls s', Machine.run (step (.perfectConnectivity latency)) s₁ ls = .ok s' →
      UpTo (.perfectConnectivity latency) t s₁ ls →
        UnderWay (.perfectConnectivity latency) s' id
        ⟨t, (dst, packet.packetTypeId), .packet s.net.packetCount⟩ t ∧
          s'.net.attemptsOf s.net.packetCount = [] ∨
        DeliveredAt (.perfectConnectivity latency) s₁ ls s' id
        ⟨t, (dst, packet.packetTypeId), .packet s.net.packetCount⟩ t ∧
          ∃ into, s'.net.attemptsOf s.net.packetCount = [⟨id, t, .packet s.net.packetCount, into⟩] := by
  obtain ⟨id, t, hadd, hsent, hj, htime⟩ := hr.attempts_sent hop hst
  refine ⟨id, t, hadd, hsent, fun ls s' hrun hup => (htime ls s' hrun hup).imp_left fun ⟨hA, h0⟩ => ⟨?_, h0⟩⟩
  exact hA.underWay (hr.tail hst) hj hrun hup

/-- A net with a latency of five seconds. -/
def later : SendFunction :=
  .perfectConnectivity (SimCx.fiveSeconds.durationSince (SimCx.clockGettime SimCx.epoch.simulationStartTime))

theorem perfect_connectivity_on_time_later : ∃ s' : NetCx ℕ (SwapArray Loc Instant) ℕ,
    Reachable later SimCx.epoch s' ∧ ∃ id into, s'.net.attemptsOf 0 =
    [⟨id, SimCx.fiveSeconds, .packet 0, into⟩] := by
  obtain ⟨s, hs, hq⟩ : ∃ s : NetCx ℕ (SwapArray Loc Instant) ℕ, Machine.run (step later)
      (install SimCx.epoch) openedRun = .ok s ∧
      (s.net.packetCount, s.now.checkedAdd
        (SimCx.fiveSeconds.durationSince (SimCx.clockGettime SimCx.epoch.simulationStartTime))) =
        (0, some SimCx.fiveSeconds) := Machine.exists_of_run (by decide +kernel)
  obtain ⟨s', hs', hq'⟩ : ∃ s' : NetCx ℕ (SwapArray Loc Instant) ℕ, Machine.run (step later) (install SimCx.epoch)
      (openedRun ++ (.user (.send 1 ⟨0, 7⟩ ⟨3, 42⟩ .ofPacket) :: laterRun)) = .ok s' ∧
      s'.net.attemptsOf 0 = [⟨2, SimCx.fiveSeconds, .packet 0, some 0⟩] :=
        Machine.exists_of_run (by decide +kernel)
  obtain ⟨s₁, hs₁, hq₁⟩ : ∃ s₁ : NetCx ℕ (SwapArray Loc Instant) ℕ, Machine.run (step later) (install SimCx.epoch)
      (openedRun ++ [.user (.send 1 ⟨0, 7⟩ ⟨3, 42⟩ .ofPacket)]) = .ok s₁ ∧
          s₁.upTo later SimCx.fiveSeconds laterRun = true :=
    Machine.exists_of_run (by decide +kernel)
  obtain ⟨m, h1, h2⟩ := Machine.run_append.mp hs₁
  obtain rfl : m = s := Except.ok.inj (h1.symm.trans hs)
  have hst := Machine.run_single.mp h2
  obtain ⟨m', h3, h4⟩ := Machine.run_append.mp hs'
  obtain rfl : m' = m := Except.ok.inj (h3.symm.trans hs)
  obtain ⟨k, h5, hrun⟩ := Machine.run_cons.mp h4
  obtain rfl : k = s₁ := Except.ok.inj (h5.symm.trans hst)
  simp only [Prod.mk.injEq] at hq
  obtain ⟨id, t, ht, -, htime⟩ := perfect_connectivity_on_time ⟨_, hs⟩ (.send 1) hst
  obtain rfl : t = SimCx.fiveSeconds := Option.some.inj (ht.symm.trans hq.2)
  rcases htime laterRun s' hrun (.of_upTo hq₁) with ⟨-, h0⟩ | ⟨-, h0⟩
  · rw [hq.1, hq'] at h0
    cases h0
  · exact ⟨s', ⟨_, hs'⟩, id, hq.1 ▸ h0⟩

/-- **One attempt, at its time.**  Of a packet that is sent there is no attempt but the one at the time of the
send plus the latency, which puts it into the inbox that is registered then, if that has room.  As long as the
attempt is not made the clock is not past that time, and the loop, when it is idle, goes on towards it. -/
theorem sent_packet_has_one_attempt {latency : Duration} {op : NetOp P} {dst : Addr} {packet : Packet P}
    {serviceLevel : ServiceLevel} {s₁ : NetCx V Q P} (hr : Reachable (.perfectConnectivity latency) b s)
    (hop : Sends dst packet serviceLevel op) (hst : s.step (.perfectConnectivity latency) (.user op) = .ok s₁) :
    ∃ id t, s.now.checkedAdd latency = some t ∧
      ∀ ls s', Machine.run (step (.perfectConnectivity latency)) s₁ ls = .ok s' →
      UpTo (.perfectConnectivity latency) t s₁ ls →
        (s'.net.attemptsOf s.net.packetCount ≠ [] →
          DeliveredAt (.perfectConnectivity latency) s₁ ls s' id
            ⟨t, (dst, packet.packetTypeId), .packet s.net.packetCount⟩ t ∧
          ∃ into, s'.net.attemptsOf s.net.packetCount = [⟨id, t, .packet s.net.packetCount, into⟩]) ∧
        (s'.net.attemptsOf s.net.packetCount = [] → s'.now ≤ t ∧
          (s'.sim.stack = [.loop] → s'.sim.ex.readyQueue = [] → s'.now < t ∧
            ∀ order, ∃ s'', s'.step (.perfectConnectivity latency) (.sim (.run order)) = .ok s'' ∧
              s'.now < s''.now ∧ s''.now ≤ t)) := by
  obtain ⟨id, t, hadd, -, -, htime⟩ := hr.attempts_sent hop hst
  refine ⟨id, t, hadd, fun ls s' hrun hup => ?_⟩
  have hr' : Reachable (.perfectConnectivity latency) b s' := (hr.tail hst).trans ⟨ls, hrun⟩
  rcases htime ls s' hrun hup with ⟨hA, h0⟩ | ⟨hD, into, h1⟩
  · have hle := hA.now_le hr'.linked
    have hup' := hup ls [] s' (List.append_nil ls).symm hrun hle
    exact ⟨fun h => absurd h0 h, fun _ => ⟨hle, fun hk hq => hA.idle_ok hr' hup' hk hq⟩⟩
  · refine ⟨fun _ => ⟨hD, into, h1⟩, fun h => ?_⟩
    rw [h1] at h
    cases h

/-- A net without latency. -/
def atOnce : SendFunction := .perfectConnectivity (SimCx.fiveSeconds.durationSince SimCx.fiveSeconds)

/-- The root task waits, and the future of `enqueue` is polled. -/
def onceRun : List (NetLabel ℕ ℕ) :=
  [.sim (.user (.done none)), .sim (.user (.done none)), .sim (.run []), .delivery 0 0]

/-- The attempt is made in the instant of the send. -/
theorem sent_packet_has_one_attempt_once : ∃ s s' : NetCx ℕ (SwapArray Loc Instant) ℕ,
    Machine.run (step atOnce) (install SimCx.epoch) openedRun = .ok s ∧ Reachable atOnce SimCx.epoch s' ∧
    ∃ id into, s'.net.attemptsOf 0 = [⟨id, s.now, .packet 0, into⟩] := by
  obtain ⟨s, hs, hq⟩ : ∃ s : NetCx ℕ (SwapArray Loc Instant) ℕ,
      Machine.run (step atOnce) (install SimCx.epoch) openedRun = .ok s ∧
      (s.net.packetCount, s.now, s.now.checkedAdd (SimCx.fiveSeconds.durationSince SimCx.fiveSeconds)) =
        (0, SimCx.clockGettime SimCx.epoch.simulationStartTime,
          some (SimCx.clockGettime SimCx.epoch.simulationStartTime)) := Machine.exists_of_run (by decide +kernel)
  obtain ⟨s', hs', hq'⟩ : ∃ s' : NetCx ℕ (SwapArray Loc Instant) ℕ,
      Machine.run (step atOnce) (install SimCx.epoch)
        (openedRun ++ (.user (.send 1 ⟨0, 7⟩ ⟨3, 42⟩ .ofPacket) :: onceRun)) = .ok s' ∧
      (s'.net.attemptsOf 0).length = 1 := Machine.exists_of_run (by decide +kernel)
  obtain ⟨s₁, hs₁, hq₁⟩ : ∃ s₁ : NetCx ℕ (SwapArray Loc Instant) ℕ,
      Machine.run (step atOnce) (install SimCx.epoch)
        (openedRun ++ [.user (.send 1 ⟨0, 7⟩ ⟨3, 42⟩ .ofPacket)]) = .ok s₁ ∧
      s₁.upTo atOnce (SimCx.clockGettime SimCx.epoch.simulationStartTime) onceRun = true :=
    Machine.exists_of_run (by decide +kernel)
  obtain ⟨m, h1, h2⟩ := Machine.run_append.mp hs₁
  obtain rfl : m = s := Except.ok.inj (h1.symm.trans hs)
  have hst := Machine.run_single.mp h2
  obtain ⟨m', h3, h4⟩ := Machine.run_append.mp hs'
  obtain rfl : m' = m := Except.ok.inj (h3.symm.trans hs)
  obtain ⟨k, h5, hrun⟩ := Machine.run_cons.mp h4
  obtain rfl : k = s₁ := Except.ok.inj (h5.symm.trans hst)
  simp only [Prod.mk.injEq] at hq
  obtain ⟨hcount, hnow, hadd⟩ := hq
  obtain ⟨id, t, ht, htime⟩ := sent_packet_has_one_attempt ⟨_, hs⟩ (.send 1) hst
  obtain rfl : t = m'.now := Option.some.inj (ht.symm.trans (hadd.trans (congrArg some hnow.symm)))
  have hne : s'.net.attemptsOf m'.net.packetCount ≠ [] := fun h0 => by
    rw [hcount] at h0
    rw [h0] at hq'
    cases hq'
  obtain ⟨-, into, hatt⟩ := (htime onceRun s' hrun (by rw [hnow]; exact .of_upTo hq₁)).1 hne
  exact ⟨m', s', hs, ⟨_, hs'⟩, id, into, hcount ▸ hatt⟩

end NetCx

end Refault
