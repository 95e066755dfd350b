import Refault.Arrivals
import Refault.Freeze

/-!
# Refault.KeyOrder — packets with an ordering key

`perfect_connectivity` gives each packet a future of its own, and does not look at ordering keys.  Such a
future makes its attempt at the time of the send plus the latency or not at all, whatever is stopped meanwhile
(`Fate`).  So packets that were sent at different times are put in in order.  Those that were sent at the same
time wait for one instant, and the heap of `TimeScheduler` wakes them in an order of its own.
-/

namespace Refault

/-- A task whose poll begins is live. -/
theorem Exec.Act.live_of_poll {V : Type} {e e' : Exec V} {id : Id} (h : Act e e')
    (hne : Refault.polls id e'.log ≠ Refault.polls id e.log) : (e'.state id).live = true := by
  cases h with
  | poll j q hq hs hr hf =>
    by_cases hj : j = id
    · subst hj
      simp [takeHead, TaskState.live]
    · exact absurd (by simp [takeHead, Refault.polls, hj]) hne
  | _ =>
    exact absurd (by simp [Refault.polls, insertTask, dropUnsent, clearHead, sent, setRunLevel, closeHandle]) hne

namespace SimCx

variable {V Q : Type} [KeyedQueue Q Loc Instant] {b : SimBuilder} {s s' : SimCx V Q} {l : Label V} {id : Id}

/-- A poll of `id` that has just begun. -/
theorem polled_begins (hB : s.Base) (h : s.step l = .ok s') (hp : s.ex.polling ≠ some id)
    (hp' : s'.ex.polling = some id) : polls id s'.ex.log ≠ polls id s.ex.log := by
  rcases (step_next hB h).act hB with he | he
  · rw [he] at hp'
    exact absurd hp' hp
  · rw [(he.polling_of hp').resolve_left hp]
    exact Nat.succ_ne_self _

/-- Calls of user code begin no poll. -/
theorem user_begins_no_poll (hB : s.Base) {op : Op V} (h : s.step (.user op) = .ok s')
    (hp' : s'.ex.polling = some id) : s.ex.polling = some id := by
  by_contra hp
  obtain ⟨⟨⟨rest, hk⟩, -⟩, -⟩ := (step_next hB h).poll_frame hB (polled_begins hB h hp hp')
  simp only [step, hk, Frame.isUser] at h
  cases h

/-- A task of `NodeId::INIT` is polled when that node runs and the simulation is not stopped. -/
theorem Reachable.up_of_poll (hr : Reachable b s) (h : s.step l = .ok s') (hp : s.ex.polling ≠ some id)
    (hp' : s'.ex.polling = some id) (hnode : s'.ex.node id = initNode) : s'.Up := by
  have hr' : Reachable b s' := hr.tail h
  have hne := polled_begins hr.base h hp hp'
  have hl : (s'.ex.state id).live = true := by
    rcases (step_next hr.base h).act hr.base with he | he
    · rw [he] at hne
      exact absurd rfl hne
    · exact he.live_of_poll hne
  obtain ⟨-, ⟨caller, rest, hk⟩, -⟩ := (step_next hr.base h).poll_frame hr.base hne
  have hS := hr'.base.shape
  rw [hk] at hS
  obtain rfl := NetCx.poll_rest hS
  refine ⟨?_, ?_⟩
  · rcases hr'.covered id hl with h0 | ⟨base, top, ids, c, hk', -⟩
    · exact hnode ▸ h0
    · have hm : Frame.stopNode ids c ∈ s'.stack := by rw [hk']; simp
      rw [hk] at hm
      simp at hm
  · have hf : s.ex.finalStopped = false := by
      by_contra h0
      exact hne (hr.no_poll (by simpa using h0) h id)
    by_contra h0
    have hm := (step_next hr.base h).closes hf (by simpa using h0)
    rw [hk] at hm
    simp at hm

/-- The task `id` is not polled, and will not be: it is dead, or a stop has yet to abort it, or the simulation
is stopped. -/
structure Doomed (s : SimCx V Q) (id : Id) : Prop where
  polling : s.ex.polling ≠ some id
  fate : s.ex.Dead id ∨ (∃ base, s.Pending base id) ∨ s.ex.finalStopped = true

theorem Doomed.step (hD : s.Doomed id) (hr : Reachable b s) (h : s.step l = .ok s') : s'.Doomed id := by
  have hB := hr.base
  refine ⟨fun hp => polled_begins hB h hD.polling hp ?_, ?_⟩
  · rcases hD.fate with hd | ⟨base, hp⟩ | hf
    · exact (hB.dead (.single h) hd).2
    · exact hp.polls hB h id
    · exact hr.no_poll hf h id
  · rcases hD.fate with hd | ⟨base, hp⟩ | hf
    · exact Or.inl (hB.dead (.single h) hd).1
    · exact (hp.step hB.sane h).elim (fun hp => Or.inr (Or.inl ⟨base, hp⟩)) Or.inl
    · exact Or.inr (Or.inr ((step_next hB h).finalStopped hB hf))

theorem Doomed.steps (hD : s.Doomed id) (hr : Reachable b s) (h : Machine.Steps SimCx.step s s') :
    s'.Doomed id :=
  h.induct (P := (Doomed · id)) hD fun _ _ _ hm hD h => hD.step (hr.trans hm) h

/-- A task of `NodeId::INIT` is doomed when that node does not run or the simulation is stopped. -/
theorem Reachable.doomed (hr : Reachable b s) (hon : s.ex.On id initNode) (hp : s.ex.polling ≠ some id)
    (hup : ¬s.Up) : s.Doomed id := by
  refine ⟨hp, ?_⟩
  cases hl : (s.ex.state id).live with
  | false => exact Or.inl ⟨hon.1, hl⟩
  | true =>
    rcases hr.covered id hl with h0 | hp'
    · refine Or.inr (Or.inr ?_)
      by_contra hf
      exact hup ⟨hon.2 ▸ h0, by simpa using hf⟩
    · exact Or.inr (Or.inl hp')

end SimCx

namespace NetCx

variable {V Q P : Type} [KeyedQueue Q Loc Instant] {f : SendFunction} {b : SimBuilder} {s s' : NetCx V Q P}
  {l : NetLabel V P} {id : Id} {d : Delivery} {D : Instant}

/-- A poll begins in a step of the runtime only. -/
theorem Next.polling (h : Next f s l s') (hB : s.sim.Base) (hp' : s'.sim.ex.polling = some id) :
    s.sim.ex.polling = some id ∨ ∃ order, l = .sim (.run order) ∧ s.sim.step (.run order) = .ok s'.sim := by
  refine h.user_steps.symm.imp_left fun hst => ?_
  exact hst.inv_of (J := SimCx.Base) (I := fun m => m.ex.polling = some id → s.sim.ex.polling = some id)
    (fun _ _ _ => SimCx.step_base) (fun _ _ _ hm hn h hp => hn (SimCx.user_begins_no_poll hm h hp)) hB
      (fun h => h) hp'

/-- A future makes attempts in its polls only. -/
theorem Next.attemptsBy_eq (h : Next f s l s') (hb : s.Beds) (hp : s.sim.ex.polling ≠ some id) :
    s'.net.attemptsBy id = s.net.attemptsBy id := by
  cases h.flight hb with
  | same hin hph hsl hatt | enqueue i d hsp hmsg hin hph hsl hatt | wait i loc hpi hl hin hph hsl hatt
  | gone i post c rest hk hin hph hsl hatt => exact Net.attemptsBy_congr hatt id
  | deliver i d loc hpi hl hd hnet hph hsl =>
    have hne : i ≠ id := by
      rintro rfl
      exact hp hpi
    rw [hnet, Net.attemptsBy_deliver, if_neg hne, List.append_nil]

/-- What becomes of a future of `enqueue`: it awaits the instant `D`, or it will not get there, or it has made its
one attempt then. -/
inductive Fate (s : NetCx V Q P) (id : Id) (d : Delivery) (D : Instant) : Prop
  | awaited (h : s.Awaited id d D)
  | doomed (h : s.sim.Doomed id) (ha : s.net.attemptsBy id = [])
  | made (into : Option InboxRc) (h : s.net.attemptsBy id = [⟨id, D, d.msg, into⟩])

theorem Fate.step (hF : s.Fate id d D) (hr : Reachable f b s) (h : step f s l = .ok s') : s'.Fate id d D := by
  have hn := step_next h
  have hL := hr.linked
  have hr' : Reachable f b s' := hr.tail h
  cases hF with
  | made into ha => exact .made into ((hr.beds.attempts_keep hn (by rw [ha]; exact List.cons_ne_nil _ _)).trans ha)
  | doomed hD ha =>
    exact .doomed (hD.steps hL.reach hn.sim_steps) ((hn.attemptsBy_eq hr.beds hD.polling).trans ha)
  | awaited hA =>
    by_cases hp : s.sim.ex.polling = some id
    · rcases hA.step_self hL hn hp with hA' | ⟨hD, -, hnet⟩
      · exact .awaited hA'
      · refine .made (s.net.accepts d.key) ?_
        rw [hnet, Net.attemptsBy_deliver, if_pos rfl, hA.unmade, hD]
        rfl
    · obtain ⟨bed, -, hO⟩ := hA.course
      have hon : s.sim.ex.On id initNode := by
        refine ⟨fun h0 => ?_, hO.spared.node⟩
        have hl := hO.spared.live
        rw [h0] at hl
        cases hl
      have hon' := hL.reach.base.on_steps hn.sim_steps hon
      have ha := (hn.attemptsBy_eq hr.beds hp).trans hA.unmade
      by_cases hup : s.sim.Up
      · by_cases hup' : s'.sim.Up
        · exact .awaited (hA.step_other hL hr.beds hup hn hup' hp)
        · refine .doomed (hr'.linked.reach.doomed hon' (fun hp' => ?_) hup') ha
          obtain ⟨order, -, hst⟩ := (hn.polling hL.reach.base hp').resolve_left hp
          exact hup' (hL.reach.up_of_poll hst hp hp' hon'.2)
      · exact .doomed ((hL.reach.doomed hon hp hup).steps hL.reach hn.sim_steps) ha

theorem Fate.run {s₁ : NetCx V Q P} (hF : s₁.Fate id d D) (hr : Reachable f b s₁)
    (h : Machine.Steps (NetCx.step f) s₁ s') : s'.Fate id d D :=
  h.induct (P := (Fate · id d D)) hF fun _ _ _ hm hF h => hF.step (hr.trans hm) h

/-- **At its time or not at all**: whatever is stopped, there is no attempt to deliver a packet but at the time of
the send plus the latency. -/
theorem Reachable.attempts_at {latency : Duration} {op : NetOp P} {dst : Addr} {packet : Packet P}
    {level : ServiceLevel} {s₁ : NetCx V Q P} (hr : Reachable (.perfectConnectivity latency) b s)
    (hop : Sends dst packet level op) (hst : s.step (.perfectConnectivity latency) (.user op) = .ok s₁)
    (h : Machine.Steps (step (.perfectConnectivity latency)) s₁ s') :
    ∃ t, s.now.checkedAdd latency = some t ∧ ∀ a ∈ s'.net.attemptsOf s.net.packetCount, a.now = t := by
  obtain ⟨id, t, hadd, -, h0, hd, hS⟩ := hr.sends hop hst
  have hr₁ : Reachable (.perfectConnectivity latency) b s₁ := hr.tail hst
  obtain ⟨hA, -⟩ := hr.awaited hst h0 hd
  rw [max_eq_right (Timespec.le_checkedAdd hadd)] at hA
  obtain ⟨ls, hrun⟩ := h
  have hS' := sole_steps hr₁ hS hrun
  refine ⟨t, hadd, fun a ha => ?_⟩
  cases (Fate.awaited hA).run hr₁ ⟨ls, hrun⟩ with
  | awaited hA' =>
    rw [hS'.attemptsOf (by rw [hA'.unmade]; simp), hA'.unmade] at ha
    cases ha
  | doomed _ ha' =>
    rw [hS'.attemptsOf (by rw [ha']; simp), ha'] at ha
    cases ha
  | made into ha' =>
    rw [hS'.attemptsOf (by rw [ha']; simp), ha'] at ha
    rw [List.mem_singleton.mp ha]

theorem Reachable.now_le (hr : Reachable f b s) (h : Machine.Steps (step f) s s') : s.now ≤ s'.now :=
  h.induct (P := fun m => s.now ≤ m.now) le_rfl fun m _ _ hm hle h => by
    have hrm : Reachable f b m := hr.trans hm
    exact hle.trans (hrm.linked.now_mono h)

/-- In a run that goes on to `s'`, the packet `p` is sent when the clock reads `tp`, and after it the packet `q`
when the clock reads `tq`: to the same address, of the same type and with the same ordering key. -/
inductive SentInTurn (f : SendFunction) (b : SimBuilder) : PacketRc → Instant → PacketRc → Instant →
    NetCx V Q P → Prop
  | mk (s s₁ s₂ s₃ s' : NetCx V Q P) (ls₁ ls₂ : List (NetLabel V P)) (op op' : NetOp P) (dst : Addr)
      (packet packet' : Packet P) (level level' : ServiceLevel) (key : OrderingKey)
      (hr : Reachable f b s) (hop : Sends dst packet level op) (hst : s.step f (.user op) = .ok s₁)
      (hrun : Machine.run (step f) s₁ ls₁ = .ok s₂)
      (hop' : Sends dst packet' level' op') (hst' : s₂.step f (.user op') = .ok s₃)
      (hrun' : Machine.run (step f) s₃ ls₂ = .ok s')
      (hty : packet'.packetTypeId = packet.packetTypeId) (hkey : level.ordering = some key)
      (hkey' : level'.ordering = some key) :
      SentInTurn f b s.net.packetCount s.now s₂.net.packetCount s₂.now s'

/-- A packet with the key `OrderingKey::empty()`. -/
def keyed : ServiceLevel := ⟨some ⟨none, none⟩, true, false⟩

/-- The future of `enqueue` that is polled ends, and the next one is polled. -/
def nextRun : List (NetLabel ℕ ℕ) :=
  [.sim (.user (.done none)), .delivery 0 0, .delivery 0 0, .sim (.user (.done none)), .sim (.run []),
    .delivery 0 0]

/-- The first of three packets with one key, all sent in the first instant. -/
def firstRun : List (NetLabel ℕ ℕ) := openedRun ++ [.user (.send 1 ⟨0, 7⟩ ⟨3, 41⟩ keyed)]

/-- From the third send to the third delivery. -/
def othersRun : List (NetLabel ℕ ℕ) :=
  [.sim (.user (.done none)), .sim (.user (.done none)), .sim (.run []), .delivery 0 0, .sim (.run []),
    .delivery 1 0, .sim (.run []), .delivery 2 0, .sim (.run []), .sim (.run []), .sim (.run []),
    .sim (.run []), .sim (.run []), .sim (.run []), .delivery 0 0] ++ nextRun ++ nextRun

end NetCx

end Refault
