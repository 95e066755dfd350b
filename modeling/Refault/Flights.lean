import Refault.Course

/-!
# Refault.Flights — what is enqueued is delivered on time

Each future of `enqueue` has a `Sleep` of its own, to which nothing else comes (`Beds`), so that it is on its
way until it makes its attempt (`Awaited`).  As long as `NodeId::INIT` runs, that is the one attempt, at the
time it was enqueued for, or at once if this has passed.
-/

namespace Refault

/-! ## What a step does to the futures -/

/-- An attempt to deliver a message, by the future of `id`; `into` is the inbox that took the message. -/
structure Attempt where
  id : Id
  now : Instant
  msg : Msg
  into : Option InboxRc
deriving DecidableEq

/-- What is observed, if it is an attempt. -/
def NetObs.asAttempt {P : Type} : NetObs P → Option Attempt
  | .attempt id now msg into => some ⟨id, now, msg, into⟩
  | _ => none

namespace Net

variable {P : Type} (n : Net P) (id : Id)

/-- The attempts made. -/
def attempts : List Attempt := n.log.filterMap NetObs.asAttempt

/-- The attempts of the future of `id`. -/
def attemptsBy : List Attempt := n.attempts.filter (·.id = id)

@[simp] theorem attempts_note (o : NetObs P) : (n.note o).attempts = n.attempts ++ o.asAttempt.toList := by
  unfold attempts
  rw [note_log, List.filterMap_append]
  cases h : o.asAttempt <;> simp [h]

theorem attempts_quiet {o : NetObs P} (ho : ∀ i now msg into, o ≠ .attempt i now msg into) :
    (n.note o).attempts = n.attempts := by
  cases o with
  | attempt i now msg into => exact absurd rfl (ho i now msg into)
  | _ => simp [NetObs.asAttempt]

@[simp] theorem attempts_lose (cause : LostCause) (msg : Msg) : (n.lose cause msg).attempts = n.attempts := by
  cases msg with
  | error kind => rfl
  | packet rc => exact attempts_quiet _ (by rintro _ _ _ _ ⟨⟩)

@[simp] theorem attempts_collect (r : InboxRc) : (n.collect r).attempts = n.attempts :=
  collect_frame n r attempts (fun n msg => attempts_lose n _ msg) rfl

theorem attempts_deliver (now : Instant) (d : Delivery) : (n.deliver id now d).attempts =
    n.attempts ++ [⟨id, now, d.msg, n.accepts d.key⟩] := by
  have h0 : ((n.land id).note (.attempt id now d.msg (n.accepts d.key))).attempts =
      n.attempts ++ [⟨id, now, d.msg, n.accepts d.key⟩] := attempts_note _ _
  unfold deliver
  dsimp only
  split
  · rw [attempts_lose, h0]
  · rename_i r hr
    by_cases hlen : (n.buffer r).length < capacity
    · rw [if_pos hlen]
      exact h0
    · rw [if_neg hlen, attempts_lose, h0]

theorem attemptsBy_congr {n n' : Net P} (h : n'.attempts = n.attempts) (id : Id) :
    n'.attemptsBy id = n.attemptsBy id := by
  rw [attemptsBy, h, attemptsBy]

theorem attemptsBy_deliver (i : Id) (now : Instant) (d : Delivery) : (n.deliver i now d).attemptsBy id =
    n.attemptsBy id ++ if i = id then [⟨i, now, d.msg, n.accepts d.key⟩] else [] := by
  rw [attemptsBy, attempts_deliver, List.filter_append, attemptsBy]
  by_cases hi : i = id <;> simp [hi]

theorem deliver_buffer (i : Id) (now : Instant) (d : Delivery) (r : InboxRc) : (n.deliver i now d).buffer r =
    if n.inboxes d.key = some r ∧ (n.buffer r).length < capacity then n.buffer r ++ [d.msg] else n.buffer r := by
  unfold deliver
  dsimp only
  cases hk : n.inboxes d.key with
  | none => simp
  | some r' =>
    dsimp only
    split_ifs with h1 h2 h2
    · obtain ⟨rfl, -⟩ : r' = r ∧ _ := ⟨Option.some.inj h2.1, h2.2⟩
      simp
    · have hne : r ≠ r' := by
        rintro rfl
        exact h2 ⟨rfl, h1⟩
      simp [hne]
    · obtain ⟨rfl, h3⟩ : r' = r ∧ _ := ⟨Option.some.inj h2.1, h2.2⟩
      exact absurd h3 h1
    · simp

theorem attempts_drain (r : InboxRc) : (n.drain r).attempts = n.attempts := by
  unfold drain
  split
  · rfl
  · exact attempts_lose ..

end Net

namespace NetCx

variable {V Q P : Type} [KeyedQueue Q Loc Instant] {f : SendFunction} {b : SimBuilder} {s s' : NetCx V Q P}
  {l : NetLabel V P}

/-- The `Sleep` of the future of `id` is at `loc`, or it is being made there. -/
def Lies (s : NetCx V Q P) (id : Id) (loc : Loc) : Prop :=
  s.phase id = some .unpolled ∧ s.sim.ts.sleeps loc = none ∨ s.phase id = some (.sleeping loc)

/-- What a step does to the futures of `enqueue` and to their `Sleep`s. -/
inductive Flight (s s' : NetCx V Q P) : Prop
  | same (hin : s'.net.inFlight = s.net.inFlight) (hph : s'.phase = s.phase) (hsl : s'.netSleep = s.netSleep)
      (hatt : s'.net.attempts = s.net.attempts)
  | enqueue (id : Id) (d : Delivery) (h : s.sim.spawnTaskOnNode initNode = .ok (id, s'.sim))
      (hmsg : ∀ rc, d.msg = .packet rc → 0 < s.net.held rc ∨ rc = s.net.packetCount)
      (hin : s'.net.inFlight = Function.update s.net.inFlight id (some d))
      (hph : s'.phase = Function.update s.phase id (some .unpolled)) (hsl : s'.netSleep = s.netSleep)
      (hatt : s'.net.attempts = s.net.attempts)
  | wait (id : Id) (loc : Loc) (hp : s.sim.ex.polling = some id) (hl : s.Lies id loc)
      (hin : s'.net.inFlight = s.net.inFlight) (hph : s'.phase = Function.update s.phase id (some (.sleeping loc)))
      (hsl : s'.netSleep = Function.update s.netSleep loc true) (hatt : s'.net.attempts = s.net.attempts)
  | deliver (id : Id) (d : Delivery) (loc : Loc) (hp : s.sim.ex.polling = some id) (hl : s.Lies id loc)
      (hd : s.net.inFlight id = some d) (hnet : s'.net = s.net.deliver id s.now d)
        (hph : s'.phase = Function.update s.phase id (some .delivered))
      (hsl : s'.netSleep = Function.update s.netSleep loc false) : Flight s s'
  | gone (id : Id) (post : Bool) (c : NodeId) (rest : List (Frame V))
      (hk : s.sim.stack = .discard id post c :: rest)
      (hin : s'.net.inFlight = Function.update s.net.inFlight id none)
        (hph : s'.phase = Function.update s.phase id none)
      (hsl : s'.netSleep = s.netSleep ∨
        ∃ loc, s.phase id = some (.sleeping loc) ∧ s'.netSleep = Function.update s.netSleep loc false)
      (hatt : s'.net.attempts = s.net.attempts)

/-- The futures of `enqueue` and their `Sleep`s: each is at a place of its own, and the attempts made are over. -/
structure Beds (s : NetCx V Q P) : Prop where
  own : ∀ id loc, s.phase id = some (.sleeping loc) → s.netSleep loc = true
  alive : ∀ loc, s.netSleep loc = true → s.sim.ts.sleeps loc ≠ none
  inj : ∀ id id' loc, s.phase id = some (.sleeping loc) → s.phase id' = some (.sleeping loc) → id = id'
  landed : ∀ id, s.net.attemptsBy id ≠ [] → s.sim.ex.state id ≠ .taskEnd ∧ s.net.inFlight id = none

theorem Next.flight (h : Next f s l s') (hb : s.Beds) : Flight s s' := by
  have same : ∀ {t : NetCx V Q P}, t.net.inFlight = s.net.inFlight → t.phase = s.phase → t.netSleep = s.netSleep →
      t.net.attempts = s.net.attempts → Flight s t := fun h1 h2 h3 h4 => .same h1 h2 h3 h4
  have polled : ∀ {t : Task}, s.sim.ex.running = some t → s.sim.ex.polling = some t.id := fun h0 => by
    rw [Exec.polling, h0]; rfl
  cases h with
  | sim | run | dropNet | addrInUse | moveSocket | receive | newPacket | clonePacket | returns =>
    exact same rfl rfl rfl rfl
  | openSocket port ty owner r net hu hn ho h =>
    unfold Net.openSocket at h
    split at h
    · cases h
    · simp only [Except.ok.injEq, Prod.mk.injEq] at h
      obtain ⟨rfl, rfl⟩ := h
      exact same rfl rfl rfl rfl
  | dropSocket r sock net hu hn hs h =>
    unfold Net.dropSocket at h
    split_ifs at h
    cases h
    exact same (Net.collect_inFlight _ _) rfl rfl (Net.attempts_collect _ _)
  | pollReceive r clone key net hu hk h0 h =>
    exact same (pollReceive_frame (·.inFlight) (fun _ _ => rfl) (fun _ _ _ => rfl) (fun _ _ => rfl)
      (fun _ => Net.collect_inFlight _ _) h)
      rfl rfl (pollReceive_frame Net.attempts (fun _ _ => rfl) (fun n o ho => Net.attempts_quiet n ho)
        (fun _ _ => rfl) (fun _ => Net.attempts_collect _ _) h)
  | dropReceive r hu h0 => exact same (Net.collect_inFlight _ _) rfl rfl (Net.attempts_collect _ _)
  | dropPacket rc hu h0 => exact same rfl rfl rfl (Net.attempts_quiet _ (by rintro _ _ _ _ ⟨⟩))
  | sendCustom op src dst packet level hu hf =>
    exact same rfl rfl rfl (Net.attempts_quiet _ (by rintro _ _ _ _ ⟨⟩))
  | sendPerfect op src dst packet level latency t id sim hu hf ht h =>
    refine .enqueue id _ h (fun rc hrc => Or.inr (by cases hrc; rfl)) rfl rfl rfl ?_
    rw [Net.enqueuePacket, Net.attempts_quiet _ (by rintro _ _ _ _ ⟨⟩)]
    exact Net.attempts_quiet _ (by rintro _ _ _ _ ⟨⟩)
  | enqueuePacket t rc w id sim hu hw h0 h =>
    exact .enqueue id _ h (fun rc' hrc => Or.inl (by cases hrc; exact h0)) rfl rfl rfl
      (Net.attempts_quiet _ (by rintro _ _ _ _ ⟨⟩))
  | enqueueError t dst ty kind id sim hu h =>
    exact .enqueue id _ h (by rintro rc ⟨⟩) rfl rfl rfl rfl
  | drain r key hs hk hc hn =>
    refine same ?_ rfl rfl (Net.attempts_drain _ r)
    unfold Net.drain
    split
    · rfl
    · exact Net.lose_inFlight _ _ _
  | firstPoll loc v caller rest t d sim₁ sim₂ _ hk hr hp hd h1 h2 h =>
    obtain ⟨hfree, rfl⟩ := SimCx.step_newSleep h1
    have hl : s.Lies t.id loc := Or.inl ⟨hp, hfree⟩
    rcases h with h | h
    · rw [h.eq]
      exact .wait t.id loc (polled hr) hl rfl rfl rfl rfl
    · rw [h.eq]
      exact .deliver t.id d loc (polled hr) hl hd rfl rfl (Function.update_idem ..)
  | nextPoll l loc v caller rest t d sim₂ _ hk hr hp hd h2 h =>
    have hl : s.Lies t.id loc := Or.inr hp
    rcases h with h | h
    · rw [h.eq]
      refine .wait t.id loc (polled hr) hl rfl rfl ?_ rfl
      rw [← hb.own t.id loc hp, Function.update_eq_self]
    · rw [h.eq]
      exact .deliver t.id d loc (polled hr) hl hd rfl rfl rfl
  | discard l v id post caller rest ph _ hk hp hph h =>
    refine .gone id post caller rest hk ?_ (by rw [h]) (Or.inl (by rw [h])) ?_
    · rw [h]
      dsimp only
      split
      · rename_i h0; rw [← h0, Function.update_eq_self]
      · exact Net.lose_inFlight _ _ _
    · rw [h]
      dsimp only
      split
      · rfl
      · exact Net.attempts_lose ..
  | discardSleep l loc v id post caller rest sim _ hk hp hst h =>
    refine .gone id post caller rest hk ?_ (by rw [h]) (Or.inr ⟨loc, hp, by rw [h]⟩) ?_
    · rw [h]
      dsimp only
      split
      · rename_i h0; rw [← h0, Function.update_eq_self]
      · exact Net.lose_inFlight _ _ _
    · rw [h]
      dsimp only
      split
      · rfl
      · exact Net.attempts_lose ..

/-- The `Sleep` of a future of `enqueue` is there until that drops it. -/
theorem Next.alive (h : Next f s l s') (hb : s.Beds) (hB : s.sim.Base) {loc : Loc} (hn : s'.netSleep loc = true) :
    s'.sim.ts.sleeps loc ≠ none := by
  -- a run of the simulation that does not drop it
  have step : ∀ {m m' : SimCx V Q} {l : Label V}, m.Base → m.step l = .ok m' → l ≠ .user (.dropSleep loc) →
      m.ts.sleeps loc ≠ none → m'.ts.sleeps loc ≠ none :=
        fun hm hst hl h0 => (SimCx.step_next hm hst).sleep_alive h0 hl
  have spawn : ∀ {id : Id} {sim : SimCx V Q}, s.sim.spawnTaskOnNode initNode = .ok (id, sim) →
      sim.ts = s.sim.ts := by
    intro id sim hsp
    obtain ⟨-, -, -, -, rfl⟩ := SimCx.spawnTaskOnNode_ok hB.exec hsp
    rfl
  -- a poll of a future, from the `Sleep`s and the marks on them before it
  have poll : ∀ {t : NetCx V Q P} {sim : SimCx V Q} {id : Id} {d : Delivery} {loc' : Loc}, sim.Base →
      t.netSleep loc' = true →
      (t.netSleep loc = true → sim.ts.sleeps loc ≠ none) → Waits t sim id loc' s' ∨ Delivers t sim id d loc' s' →
      s'.sim.ts.sleeps loc ≠ none := by
    rintro t sim id d loc' hm h1 h2 (h | h)
    · rw [h.eq] at hn
      exact step hm h.step (by rintro ⟨⟩) (h2 hn)
    · obtain ⟨sim₁, h3, h4⟩ := h.steps
      rw [h.eq] at hn
      have hne : loc ≠ loc' := by
        rintro rfl
        simp at hn
      refine step (SimCx.step_base hm h3) h4 (by rintro ⟨⟩)
        (step hm h3 (fun h0 => ?_) (h2 (by simpa [hne] using hn)))
      cases h0
      exact hne rfl
  cases h with
  | sim op sim hu hp h =>
    refine step hB h (fun h0 => ?_) (hb.alive loc hn)
    cases h0
    have hp' : s.netSleep loc = false := by simpa [permits] using hp
    rw [hp'] at hn
    cases hn
  | run order sim hd h | dropNet order sim hd h => exact step hB h (by rintro ⟨⟩) (hb.alive loc hn)
  | returns l v caller rest t sim hk hr hp h => exact step hB h (by rintro ⟨⟩) (hb.alive loc hn)
  | sendPerfect op src dst packet level latency t id sim hu hf ht h =>
    dsimp only
    rw [spawn h]
    exact hb.alive loc hn
  | enqueuePacket t rc w id sim hu hw h0 h =>
    dsimp only
    rw [spawn h]
    exact hb.alive loc hn
  | enqueueError t dst ty kind id sim hu h =>
    dsimp only
    rw [spawn h]
    exact hb.alive loc hn
  | firstPoll loc' v caller rest t d sim₁ sim₂ _ hk hr hp hd h1 h2 h =>
    have hB1 := SimCx.step_base hB h1
    refine poll (SimCx.step_base hB1 h2) (by simp) (fun h0 => step hB1 h2 (by rintro ⟨⟩) ?_) h
    by_cases hne : loc = loc'
    · subst hne
      rw [(SimCx.step_newSleep h1).2]
      simp [TimeScheduler.newSleep]
    · exact step hB h1 (by rintro ⟨⟩) (hb.alive loc (by simpa [hne] using h0))
  | nextPoll l loc' v caller rest t d sim₂ _ hk hr hp hd h2 h =>
    exact poll (SimCx.step_base hB h2) (hb.own _ _ hp) (fun h0 => step hB h2 (by rintro ⟨⟩) (hb.alive loc h0)) h
  | discard l v id post caller rest ph _ hk hp hph h =>
    rw [h] at hn ⊢
    exact hb.alive loc hn
  | discardSleep l loc' v id post caller rest sim _ hk hp hst h =>
    rw [h] at hn ⊢
    have hne : loc ≠ loc' := by
      rintro rfl
      simp at hn
    refine step hB hst (fun h0 => ?_) (hb.alive loc (by simpa [hne] using hn))
    cases h0
    exact hne rfl
  | _ => exact hb.alive loc hn

theorem Beds.step (hb : s.Beds) (hL : s.Linked b) (h : step f s l = .ok s') : s'.Beds := by
  have hn := step_next h
  have hB := hL.reach.base
  have hknown : ∀ {id : Id}, s.sim.ex.state id ≠ .taskEnd → s'.sim.ex.state id ≠ .taskEnd :=
    hB.known_steps hn.sim_steps
  have hlies : ∀ {id loc i : ℕ}, s.Lies id loc → s.phase i = some (.sleeping loc) → i = id := by
    rintro id loc i (⟨-, h0⟩ | h0) hi
    · exact absurd h0 (hb.alive loc (hb.own i loc hi))
    · exact hb.inj i id loc hi h0
  -- the phase of one future changes, and it is no sleep
  have awake : ∀ {id : Id} {ph : Option DeliveryPhase}, (∀ loc, ph ≠ some (.sleeping loc)) →
      s'.phase = Function.update s.phase id ph → ∀ i loc, s'.phase i = some (.sleeping loc) → i ≠ id ∧
          s.phase i = some (.sleeping loc) := by
    intro id ph hph h0 i loc hi
    rw [h0] at hi
    by_cases hid : i = id
    · subst hid
      exact absurd (by simpa using hi) (hph loc)
    · exact ⟨hid, by simpa [hid] using hi⟩
  have landed : s'.net.attempts = s.net.attempts →
      (∀ id, s.net.attemptsBy id ≠ [] → s'.net.inFlight id = s.net.inFlight id ∨
      s'.net.inFlight id = none) → ∀ id, s'.net.attemptsBy id ≠ [] → s'.sim.ex.state id ≠ .taskEnd ∧
          s'.net.inFlight id = none := by
    intro hatt hin id h0
    rw [Net.attemptsBy_congr hatt] at h0
    refine ⟨hknown (hb.landed id h0).1, ?_⟩
    rcases hin id h0 with h1 | h1
    · exact h1.trans (hb.landed id h0).2
    · exact h1
  have halive : ∀ loc, s'.netSleep loc = true → s'.sim.ts.sleeps loc ≠ none := fun loc => hn.alive hb hB
  cases hn.flight hb with
  | same hin hph hsl hatt =>
    refine ⟨?_, halive, ?_, landed hatt fun id _ => Or.inl (by rw [hin])⟩
    · rw [hph, hsl]; exact hb.own
    · rw [hph]; exact hb.inj
  | enqueue id d hsp hmsg hin hph hsl hatt =>
    have hold := awake (by rintro loc ⟨⟩) hph
    refine ⟨fun i loc hi => ?_, halive, fun i j loc hi hj => hb.inj i j loc (hold i loc hi).2
      (hold j loc hj).2, landed hatt fun i hi => ?_⟩
    · rw [hsl]
      exact hb.own i loc (hold i loc hi).2
    · have hne : i ≠ id := by
        rintro rfl
        have hfresh := (hb.landed i hi).1
        obtain ⟨-, -, hid, -⟩ := SimCx.spawnTaskOnNode_ok hB.exec hsp
        exact hfresh (hB.exec.fresh i (hid ▸ Nat.lt_succ_self _))
      exact Or.inl (by rw [hin]; simp [hne])
  | wait id loc hp hl hin hph hsl hatt =>
    have hold : ∀ i loc', s'.phase i = some (.sleeping loc') → i = id ∧ loc' = loc ∨ i ≠ id ∧ loc' ≠ loc ∧
        s.phase i = some (.sleeping loc') := by
      intro i loc' hi
      rw [hph] at hi
      by_cases hid : i = id
      · subst hid
        exact Or.inl ⟨rfl, by simpa [eq_comm] using hi⟩
      · have hi' : s.phase i = some (.sleeping loc') := by simpa [hid] using hi
        refine Or.inr ⟨hid, ?_, hi'⟩
        rintro rfl
        exact hid (hlies hl hi')
    refine ⟨fun i loc' hi => ?_, halive, fun i j loc' hi hj => ?_, landed hatt fun i _ => Or.inl (by rw [hin])⟩
    · rw [hsl]
      rcases hold i loc' hi with ⟨rfl, rfl⟩ | ⟨-, hne, hi'⟩
      · simp
      · simpa [hne] using hb.own i loc' hi'
    · rcases hold i loc' hi with ⟨rfl, rfl⟩ | ⟨-, hne, hi'⟩ <;>
        rcases hold j loc' hj with ⟨rfl, hj'⟩ | ⟨-, hne', hj'⟩
      · rfl
      · exact absurd rfl hne'
      · exact absurd hj' hne
      · exact hb.inj i j loc' hi' hj'
  | deliver id d loc hp hl hd hnet hph hsl =>
    have hold := awake (by rintro loc ⟨⟩) hph
    refine ⟨fun i loc' hi => ?_, halive, fun i j loc hi hj => hb.inj i j loc (hold i loc hi).2
      (hold j loc hj).2, fun i hi => ?_⟩
    · obtain ⟨hne, hi'⟩ := hold i loc' hi
      rw [hsl]
      have hloc : loc' ≠ loc := by
        rintro rfl
        exact hne (hlies hl hi')
      simpa [hloc] using hb.own i loc' hi'
    · rw [hnet, deliver_inFlight]
      by_cases hid : i = id
      · subst hid
        exact ⟨hknown
          (hL.known i (by rcases hl with ⟨h0, -⟩ | h0 <;> rw [h0] <;> exact Option.some_ne_none _)), by simp⟩
      · rw [hnet, Net.attemptsBy_deliver, if_neg (Ne.symm hid), List.append_nil] at hi
        exact ⟨hknown (hb.landed i hi).1, by simpa [hid] using (hb.landed i hi).2⟩
  | gone id post c rest hk hin hph hsl hatt =>
    have hold := awake (by rintro loc ⟨⟩) hph
    refine ⟨fun i loc' hi => ?_, halive, fun i j loc hi hj => hb.inj i j loc (hold i loc hi).2
      (hold j loc hj).2, landed hatt fun i _ => ?_⟩
    · obtain ⟨hne, hi'⟩ := hold i loc' hi
      rcases hsl with hsl | ⟨loc, hloc, hsl⟩
      · rw [hsl]; exact hb.own i loc' hi'
      · rw [hsl]
        have hne' : loc' ≠ loc := by
          rintro rfl
          exact hne (hb.inj i id loc' hi' hloc)
        simpa [hne'] using hb.own i loc' hi'
    · by_cases hid : i = id
      · exact Or.inr (by rw [hin, hid]; simp)
      · exact Or.inl (by rw [hin]; simp [hid])

theorem Reachable.beds (hr : Reachable f b s) : s.Beds :=
  Machine.Steps.inv_of (J := (Linked b ·)) (fun _ _ _ hL h => hL.step h)
    (fun _ _ _ hL hb h => hb.step hL h) hr (linked_install b)
    ⟨fun _ _ h => (by cases h), fun _ h => (by cases h), fun _ _ _ h => (by cases h), fun _ h => absurd rfl h⟩

/-! ## Attempts -/

/-- The phase of a future in flight, by the place of its `Sleep`. -/
def DeliveryPhase.ofBed : Option Loc → DeliveryPhase
  | none => .unpolled
  | some loc => .sleeping loc

/-- The future of `id` is in flight with `d`, on its way to an attempt at `D`. -/
structure Awaited (s : NetCx V Q P) (id : Id) (d : Delivery) (D : Instant) : Prop where
  course : ∃ bed, s.phase id = some (DeliveryPhase.ofBed bed) ∧ s.sim.OnCourse id d.at_ D bed
  flight : s.net.inFlight id = some d
  unmade : s.net.attemptsBy id = []

variable {id : Id} {d : Delivery} {D : Instant}

/-- An attempt that was made is the only one. -/
theorem Beds.attempts_keep (hb : s.Beds) (h : Next f s l s') (ha : s.net.attemptsBy id ≠ []) :
    s'.net.attemptsBy id = s.net.attemptsBy id := by
  cases h.flight hb with
  | same hin hph hsl hatt => exact Net.attemptsBy_congr hatt id
  | enqueue i d hsp hmsg hin hph hsl hatt => exact Net.attemptsBy_congr hatt id
  | wait i loc hp hl hin hph hsl hatt => exact Net.attemptsBy_congr hatt id
  | gone i post c rest hk hin hph hsl hatt => exact Net.attemptsBy_congr hatt id
  | deliver i d loc hp hl hd hnet hph hsl =>
    have hne : i ≠ id := by
      rintro rfl
      rw [(hb.landed i ha).2] at hd
      cases hd
    rw [hnet, Net.attemptsBy_deliver, if_neg hne, List.append_nil]

theorem Linked.now_eq (hL : s.Linked b) : s.now = s.sim.ts.now := hL.reach.coherent.clockGettime

/-- What was just enqueued is awaited at its time, or at once if that is past. -/
theorem awaited_enqueue (hL : s.Linked b) (hb : s.Beds) (hsp : s.sim.spawnTaskOnNode initNode = .ok (id, s'.sim))
    (hph : s'.phase = Function.update s.phase id (some .unpolled)) (hin : s'.net.inFlight id = some d)
    (hatt : s'.net.attemptsBy id = s.net.attemptsBy id) : s'.Awaited id d (max s.now d.at_) := by
  have hB := hL.reach.base
  refine ⟨⟨none, by rw [hph]; exact Function.update_self .., ?_⟩, hin, ?_⟩
  · rw [hL.now_eq]
    exact SimCx.onCourse_spawn hB hsp d.at_
  · rw [hatt]
    by_contra h0
    obtain ⟨-, -, hid, -⟩ := SimCx.spawnTaskOnNode_ok hB.exec hsp
    exact (hb.landed id h0).1 (hB.exec.fresh id (hid ▸ Nat.lt_succ_self _))

theorem Awaited.now_le (hA : s.Awaited id d D) (hL : s.Linked b) : s.now ≤ D := by
  obtain ⟨bed, -, hO⟩ := hA.course
  rw [hL.now_eq]
  exact hO.course.now_le hL.reach.base

/-- User code, and other futures of `enqueue`, leave the task of `id` on its course. -/
theorem Beds.onCourse_other (hb : s.Beds) (hB : s.sim.Base) {bed : Option Loc} {T : Instant}
    (hph : s.phase id = some (DeliveryPhase.ofBed bed)) (hO : s.sim.OnCourse id T D bed) (hup : s.sim.Up)
    (h : Next f s l s')
    (hup' : s'.sim.Up) (hp : s.sim.ex.polling ≠ some id) : s'.sim.OnCourse id T D bed := by
  have hown : ∀ {loc : Loc}, bed = some loc → s.phase id = some (.sleeping loc) := by
    rintro loc rfl
    exact hph
  -- a call that leaves the executor alone
  have call : ∀ {m m' : SimCx V Q} {l : Label V}, m.Base ∧ m.Up ∧ m.OnCourse id T D bed ∧ m.ex.polling ≠ some id →
      m.step l = .ok m' → m'.ex = m.ex → SimCx.KeepsOff id bed l →
      m'.Base ∧ m'.Up ∧ m'.OnCourse id T D bed ∧ m'.ex.polling ≠ some id := by
    rintro m m' l ⟨h1, h2, h3, h4⟩ hst he hl
    have hup₁ : m'.Up := by rw [SimCx.Up, he]; exact h2
    exact ⟨SimCx.step_base h1 hst, hup₁, h3.step h1 h2 (SimCx.step_next h1 hst) hup₁ hl h4, by rw [he]; exact h4⟩
  have spawn : ∀ {i : Id} {sim : SimCx V Q}, s.userCode = true →
      s.sim.spawnTaskOnNode initNode = .ok (i, sim) → sim.Up → sim.OnCourse id T D bed := fun hu hsp h0 =>
    hO.step hB hup (SimCx.step_next hB (SimCx.step_spawn (inUser_of_userCode hu) hsp)) h0 trivial hp
  have poll : ∀ {t : NetCx V Q P} {m : SimCx V Q} {i : Id} {d' : Delivery} {loc : Loc},
      m.Base ∧ m.Up ∧ m.OnCourse id T D bed ∧ m.ex.polling ≠ some id → bed ≠ some loc → Waits t m i loc s' ∨
        Delivers t m i d' loc s' →
      s'.sim.OnCourse id T D bed := by
    rintro t m i d' loc hm hloc (h | h)
    · exact hm.2.2.1.step hm.1 hm.2.1 (SimCx.step_next hm.1 h.step) hup' trivial hm.2.2.2
    · obtain ⟨m₁, h1, h2⟩ := h.steps
      obtain ⟨-, j, sim, -, -, he⟩ := SimCx.withSimulator_ok (SimCx.step_withSimulator h2)
      exact (call (call hm h1 (by rw [(SimCx.step_dropSleep h1).2]) hloc) h2 (by rw [he]) trivial).2.2.1
  cases h with
  | sim op sim hu hpm hst =>
    refine hO.step hB hup (SimCx.step_next hB hst) hup' ?_ hp
    cases op with
    | abort j =>
      rintro rfl
      simp [permits, isDelivery, hph] at hpm
    | pollSleep loc w | dropSleep loc =>
      intro h0
      simp [permits, hb.own id loc (hown h0)] at hpm
    | _ => trivial
  | run order sim hd hst | dropNet order sim hd hst =>
    exact hO.step hB hup (SimCx.step_next hB hst) hup' trivial hp
  | returns l v caller rest t sim hk hr hpt hst => exact hO.step hB hup (SimCx.step_next hB hst) hup' trivial hp
  | sendPerfect op src dst packet level latency t i sim hu hf ht hsp => exact spawn hu hsp hup'
  | enqueuePacket t rc w i sim hu hw h0 hsp => exact spawn hu hsp hup'
  | enqueueError t dst ty kind i sim hu hsp => exact spawn hu hsp hup'
  | firstPoll loc v caller rest t d' sim₁ sim₂ _ hk hr hpt hd h1 h2 h =>
    obtain ⟨hfree, he1⟩ := SimCx.step_newSleep h1
    obtain ⟨sl, ts, -, -, he2⟩ := SimCx.step_pollSleep h2
    have hne : bed ≠ some loc := fun h0 => hb.alive loc (hb.own id loc (hown h0)) hfree
    exact poll (call (call ⟨hB, hup, hO, hp⟩ h1 (by rw [he1]) trivial) h2 (by rw [he2]) hne) hne h
  | nextPoll l loc v caller rest t d' sim₂ _ hk hr hpt hd h2 h =>
    obtain ⟨sl, ts, -, -, he2⟩ := SimCx.step_pollSleep h2
    have hne : bed ≠ some loc := fun h0 => hp (by rw [Exec.polling, hr, hb.inj id t.id loc (hown h0) hpt]; rfl)
    exact poll (call ⟨hB, hup, hO, hp⟩ h2 (by rw [he2]) hne) hne h
  | discard l v i post caller rest ph _ hk hpt hph' h =>
    rw [h]
    exact hO
  | discardSleep l loc v i post caller rest sim _ hk hpt hst h =>
    rw [h] at hup' ⊢
    refine hO.step hB hup (SimCx.step_next hB hst) hup' (fun h0 => ?_) hp
    have hne : i ≠ id := hO.spared.frames (.discard i post caller) (by rw [hk]; exact List.mem_cons_self)
    exact hne (hb.inj i id loc hpt (hown h0))
  | _ => exact hO

/-- User code, and other futures of `enqueue`, leave the future of `id` alone. -/
theorem Awaited.step_other (hA : s.Awaited id d D) (hL : s.Linked b) (hb : s.Beds) (hup : s.sim.Up)
    (h : Next f s l s') (hup' : s'.sim.Up) (hp : s.sim.ex.polling ≠ some id) : s'.Awaited id d D := by
  obtain ⟨bed, hph, hO⟩ := hA.course
  have hB := hL.reach.base
  have hsome : s.phase id ≠ none := by rw [hph]; exact Option.some_ne_none _
  have hcourse := hb.onCourse_other hB hph hO hup h hup' hp
  -- the future of `i` changes, another one
  have other : ∀ {i : Id} {ph : Option DeliveryPhase} {x : Option Delivery}, i ≠ id →
      s'.phase = Function.update s.phase i ph →
      s'.net.inFlight = s.net.inFlight ∨ s'.net.inFlight = Function.update s.net.inFlight i x →
        s'.net.attemptsBy id = s.net.attemptsBy id →
      s'.Awaited id d D := by
    intro i ph x hne h1 h2 h3
    refine ⟨⟨bed, by rw [h1]; simpa [Ne.symm hne] using hph, hcourse⟩, ?_, h3.trans hA.unmade⟩
    rcases h2 with h2 | h2
    · rw [h2]; exact hA.flight
    · rw [h2]; simpa [Ne.symm hne] using hA.flight
  cases h.flight hb with
  | same hin hph' hsl hatt =>
    exact ⟨⟨bed, by rw [hph']; exact hph, hcourse⟩,
      by rw [hin]; exact hA.flight, (Net.attemptsBy_congr hatt id).trans hA.unmade⟩
  | enqueue i d' hsp hmsg hin hph' hsl hatt =>
    refine other (fun h0 => hsome ?_) hph' (Or.inr hin) (Net.attemptsBy_congr hatt id)
    rw [← h0]
    exact (hL.fresh hsp).1
  | wait i loc hpi hl hin hph' hsl hatt =>
    exact other (fun h0 => hp (h0 ▸ hpi)) hph' (Or.inl hin) (Net.attemptsBy_congr hatt id) (x := none)
  | deliver i d' loc hpi hl hd hnet hph' hsl =>
    have hne : i ≠ id := fun h0 => hp (h0 ▸ hpi)
    refine other hne hph' (Or.inr (by rw [hnet, deliver_inFlight])) ?_
    rw [hnet, Net.attemptsBy_deliver, if_neg hne, List.append_nil]
  | gone i post c rest hk hin hph' hsl hatt =>
    exact other (hO.spared.frames (.discard i post c) (by rw [hk]; exact List.mem_cons_self)) hph'
      (Or.inr hin) (Net.attemptsBy_congr hatt id)

/-- The future of `id` is polled: it goes on to sleep, or it makes its attempt, on time. -/
theorem Awaited.step_self (hA : s.Awaited id d D) (hL : s.Linked b) (h : Next f s l s')
    (hp : s.sim.ex.polling = some id) :
    s'.Awaited id d D ∨ s.now = D ∧ (∃ loc v, l = .delivery loc v) ∧ s'.net = s.net.deliver id s.now d := by
  obtain ⟨bed, hph, hO⟩ := hA.course
  have hB := hL.reach.base
  obtain ⟨c, hk⟩ := hO.poll hp
  have hrun : ∀ {t : Task}, s.sim.ex.running = some t → t.id = id := by
    intro t ht
    rw [Exec.polling, ht] at hp
    exact Option.some.inj hp
  have huser : s.userCode = false := by
    obtain ⟨t, ht, rfl⟩ := Option.map_eq_some_iff.mp hp
    simp [userCode, hk, ht, isDelivery, hph]
  have notUser : s.userCode = true → s'.Awaited id d D ∨ s.now = D ∧ (∃ loc v, l = .delivery loc v) ∧
      s'.net = s.net.deliver id s.now d :=
    fun hu => by rw [huser] at hu; cases hu
  -- the future goes to sleep, at `loc`
  have wait : ∀ {t : NetCx V Q P} {m : SimCx V Q} {loc : Loc}, Waits t m id loc s' → m.Base →
      m.stack = s.sim.stack → m.ex = s.sim.ex →
      t.net = s.net → D = d.at_ → m.ts.sleeps loc = some ⟨d.at_, .waiting (.task id)⟩ → s'.Awaited id d D := by
    intro t m loc h hm hk' he hnet hD hs
    have hs' := SimCx.step_pending hm (hk'.trans hk) (by rw [he]; exact hp)
        (by rw [he]; exact hO.spared.live) h.step
    rw [h.eq]
    refine ⟨⟨some loc, by simp [DeliveryPhase.ofBed], ⟨⟨?_, ?_, ?_⟩, .waiting loc hD ?_, ?_⟩⟩, ?_, ?_⟩
    · rw [hs']; simpa [he] using hO.spared.live
    · rw [hs']; simpa [he] using hO.spared.node
    · rw [hs']
      intro g hg
      rw [List.mem_singleton.mp hg]
      trivial
    · rw [hs']; exact hs
    · rw [hs']
      intro h0
      simp [Exec.polling] at h0
    · exact hnet ▸ hA.flight
    · exact hnet ▸ hA.unmade
  cases h with
  | sim op sim hu | addrInUse port ty owner e hu | openSocket port ty owner r net hu | dropSocket r sock net hu
  | moveSocket r owner hu | receive r hu | pollReceive r clone key net hu | dropReceive r hu
  | newPacket src dst packet level hu
  | clonePacket rc hu | dropPacket rc hu | sendCustom op src dst packet level hu
  | sendPerfect op src dst packet level latency t i sim hu | enqueuePacket t rc w i sim hu
  | enqueueError t dst ty kind i sim hu => exact notUser hu
  | run order sim hd hst | dropNet order sim hd hst =>
    simp only [SimCx.step, SimCx.runtime, hk] at hst
    cases hst
  | drain r key hs hk' hc hn => simp [inStartNode, hk] at hs
  | discard l v i post caller rest ph _ hk' | discardSleep l loc v i post caller rest sim _ hk' =>
    rw [hk] at hk'
    cases hk'
  | returns l v caller rest t sim hk' hr hpt hst =>
    rw [hrun hr, hph] at hpt
    cases bed <;> cases hpt
  | firstPoll loc v caller rest t d' sim₁ sim₂ _ hk' hr hpt hd h1 h2 h =>
    obtain rfl := hrun hr
    obtain rfl : d = d' := Option.some.inj (hA.flight.symm.trans hd)
    have hB2 := SimCx.step_base (SimCx.step_base hB h1) h2
    have hD : D = max s.sim.ts.now d.at_ := by
      cases hO.course with
      | unpolled hD hr => exact hD
      | waiting loc' hD hs => rw [hph] at hpt; cases hpt
      | woken loc' hD hn hs hr => rw [hph] at hpt; cases hpt
    obtain ⟨hfree, rfl⟩ := SimCx.step_newSleep h1
    obtain ⟨sl, ts, hs, hpoll, rfl⟩ := SimCx.step_pollSleep h2
    obtain rfl : sl = ⟨d.at_, .init d.at_⟩ := by
      simpa [TimeScheduler.newSleep, eq_comm] using hs
    simp only [TimeScheduler.pollState] at hpoll
    split_ifs at hpoll with hle
    · -- the time has come, or is past
      cases hpoll
      rcases h with h | h
      · obtain ⟨t', w, hw⟩ := h.waiting
        simp at hw
      · refine Or.inr ⟨?_, ⟨loc, v, rfl⟩, by rw [h.eq]; rfl⟩
        rw [hL.now_eq, hD]
        exact (max_eq_left hle).symm
    · cases hpoll
      rcases h with h | h
      · refine Or.inl (wait h hB2 rfl rfl rfl ?_ (by simp))
        rw [hD]
        exact max_eq_right (le_of_not_ge hle)
      · exact absurd (by simp) (h.ready d.at_ (.task t.id))
  | nextPoll l loc v caller rest t d' sim₂ _ hk' hr hpt hd h2 h =>
    obtain rfl := hrun hr
    obtain rfl : d = d' := Option.some.inj (hA.flight.symm.trans hd)
    have hB2 := SimCx.step_base hB h2
    obtain ⟨sl, ts, hs, hpoll, rfl⟩ := SimCx.step_pollSleep h2
    cases hO.course with
    | unpolled hD hr => rw [hph] at hpt; cases hpt
    | waiting loc' hD hs' =>
      obtain rfl : loc' = loc := by rw [hph] at hpt; simpa [DeliveryPhase.ofBed] using hpt
      obtain rfl : sl = ⟨d.at_, .waiting (.task t.id)⟩ := Option.some.inj (hs.symm.trans hs')
      cases hpoll
      rcases h with h | h
      · exact Or.inl (wait h hB2 rfl rfl rfl hD (by simp))
      · exact absurd (by simp) (h.ready d.at_ (.task t.id))
    | woken loc' hD hn hs' hready =>
      obtain rfl : loc' = loc := by rw [hph] at hpt; simpa [DeliveryPhase.ofBed] using hpt
      obtain rfl : sl = ⟨d.at_, .done d.at_⟩ := Option.some.inj (hs.symm.trans hs')
      cases hpoll
      rcases h with h | h
      · obtain ⟨t', w, hw⟩ := h.waiting
        simp at hw
      · exact Or.inr ⟨by rw [hL.now_eq, hn, hD], ⟨l, v, rfl⟩, by rw [h.eq]⟩

/-- The clock goes on in steps of the runtime only. -/
theorem Next.clock (h : Next f s l s') (hB : s.sim.Base) :
    s'.sim.ts.now = s.sim.ts.now ∨ ∃ order, l = .sim (.run order) ∧ s.sim.step (.run order) = .ok s'.sim := by
  refine h.user_steps.symm.imp_left fun hst => ?_
  refine hst.inv_of (J := SimCx.Base) (I := fun m => m.ts.now = s.sim.ts.now) (fun _ _ _ => SimCx.step_base)
    (fun m op m' hm hn h => ?_) hB rfl
  rcases (SimCx.step_next hm h).clock with ⟨-, hn', -⟩ | ⟨dt, hadv⟩
  · exact hn'.trans hn
  · obtain ⟨rest, hk, -⟩ := hadv.stack
    simp only [SimCx.step, hk, Frame.isUser] at h
    cases h

theorem Awaited.now_le_step (hA : s.Awaited id d D) (hL : s.Linked b) (hup : s.sim.Up)
    (h : step f s l = .ok s') : s'.now ≤ D := by
  obtain ⟨bed, -, hO⟩ := hA.course
  rw [(hL.step h).now_eq]
  rcases (step_next h).clock hL.reach.base with hn | ⟨order, rfl, hst⟩
  · rw [hn]
    exact hO.course.now_le hL.reach.base
  · exact hO.now_le_step hL.reach.base hup (SimCx.step_next hL.reach.base hst)

/-- `NodeId::INIT` runs and the simulation is not stopped, in every state of the run up to and including the
instant `D`. -/
def UpTo (f : SendFunction) (D : Instant) (s : NetCx V Q P) (ls : List (NetLabel V P)) : Prop :=
  ∀ ls₁ ls₂ m, ls = ls₁ ++ ls₂ → Machine.run (step f) s ls₁ = .ok m → m.now ≤ D → m.sim.Up

instance (s : SimCx V Q) : Decidable s.Up := inferInstanceAs (Decidable (_ ∧ _))

/-- `UpTo`, computed. -/
def upTo (f : SendFunction) (D : Instant) (s : NetCx V Q P) : List (NetLabel V P) → Bool
  | [] => decide (s.now ≤ D → s.sim.Up)
  | l :: ls => decide (s.now ≤ D → s.sim.Up) && (match step f s l with
    | .ok m => m.upTo f D ls
    | .error _ => true)

theorem UpTo.of_upTo {ls : List (NetLabel V P)} (h : s.upTo f D ls = true) : UpTo f D s ls := by
  induction ls generalizing s with
  | nil =>
    intro ls₁ ls₂ m hls hm hle
    obtain ⟨rfl, -⟩ := List.append_eq_nil_iff.mp hls.symm
    cases hm
    exact of_decide_eq_true h hle
  | cons l ls ih =>
    simp only [upTo, Bool.and_eq_true, decide_eq_true_eq] at h
    intro ls₁ ls₂ m hls hm hle
    cases ls₁ with
    | nil => cases hm; exact h.1 hle
    | cons l' ls₁ =>
      obtain ⟨rfl, hls'⟩ := List.cons.inj hls
      obtain ⟨k, h1, h2⟩ := Machine.run_cons.mp hm
      have h' := h.2
      rw [h1] at h'
      exact ih h' ls₁ ls₂ m hls' h2 hle

/-- In the run of `ls` from `s` to `s'` there is one attempt of the future of `id`, at `D`: the message goes
to the end of the inbox that is registered for its key then, if that has room. -/
inductive DeliveredAt (f : SendFunction) (s : NetCx V Q P) (ls : List (NetLabel V P)) (s' : NetCx V Q P)
    (id : Id) (d : Delivery) (D : Instant) : Prop
  | mk (ls₁ ls₂ : List (NetLabel V P)) (l : NetLabel V P) (m m' : NetCx V Q P) (split : ls = ls₁ ++ l :: ls₂)
      (before : Machine.run (step f) s ls₁ = .ok m) (attempt : step f m l = .ok m')
        (after : Machine.run (step f) m' ls₂ = .ok s')
      (now : m.now = D) (unmade : m.net.attemptsBy id = [])
        (once : s'.net.attemptsBy id = [⟨id, D, d.msg, m.net.accepts d.key⟩])
      (buffer : ∀ r, m'.net.buffer r = if m.net.inboxes d.key = some r ∧
        (m.net.buffer r).length < Net.capacity then
        m.net.buffer r ++ [d.msg] else m.net.buffer r)

theorem DeliveredAt.tail {s₀ : NetCx V Q P} {ls : List (NetLabel V P)} (h : DeliveredAt f s₀ ls s id d D)
    (hb : s.Beds) (hst : step f s l = .ok s') : DeliveredAt f s₀ (ls ++ [l]) s' id d D := by
  cases h with
  | mk ls₁ ls₂ l' m m' split before attempt after now unmade once buffer =>
    refine .mk ls₁ (ls₂ ++ [l]) l' m m' (by rw [split]; simp) before attempt ?_ now unmade ?_ buffer
    · exact Machine.run_append.mpr ⟨s, after, Machine.run_single.mpr hst⟩
    · exact (hb.attempts_keep (step_next hst) (by rw [once]; exact List.cons_ne_nil _ _)).trans once

/-- **On time**: what is awaited at `D` is awaited still, or its one attempt was made then. -/
theorem Awaited.run (hA : s.Awaited id d D) (hr : Reachable f b s) {ls : List (NetLabel V P)}
    (hrun : Machine.run (step f) s ls = .ok s')
    (hup : UpTo f D s ls) : s'.Awaited id d D ∨ DeliveredAt f s ls s' id d D := by
  induction ls using List.reverseRecOn generalizing s' with
  | nil => cases hrun; exact Or.inl hA
  | append_singleton ls l ih =>
    obtain ⟨m, hm, hst⟩ := Machine.run_append.mp hrun
    have hst := Machine.run_single.mp hst
    have hrm : Reachable f b m := hr.trans ⟨ls, hm⟩
    have hL := hrm.linked
    have hn := step_next hst
    rcases ih hm (fun ls₁ ls₂ k h0 => hup ls₁ (ls₂ ++ [l]) k (by rw [h0, List.append_assoc])) with hA | hD
    · have hupm := hup ls [l] m rfl hm (hA.now_le hL)
      by_cases hp : m.sim.ex.polling = some id
      · rcases hA.step_self hL hn hp with hA' | ⟨hD, -, hnet⟩
        · exact Or.inl hA'
        · refine Or.inr (.mk ls [] l m s' rfl hm hst rfl hD hA.unmade ?_ fun r => ?_)
          · rw [hnet, Net.attemptsBy_deliver, if_pos rfl, hA.unmade, hD]
            rfl
          · rw [hnet, Net.deliver_buffer]
      · have hups := hup _ [] s' (List.append_nil _).symm hrun (hA.now_le_step hL hupm hst)
        exact Or.inl (hA.step_other hL hrm.beds hupm hn hups hp)
    · exact Or.inr (hD.tail hrm.beds hst)

end NetCx

end Refault
