import Refault.Callbacks
import Refault.NetCx
import Refault.NetInv

/-!
# Refault.NetStep — what a step of the simulation with a `Net` does

`Next` has one constructor for each way in which a step can succeed.  From it: every step is a run of `SimCx`
and a run of acts of `Net`, and the futures of `enqueue` that are not past their end are those in flight
(`Linked`).
-/

namespace Refault

namespace NetCx

variable {V Q P : Type}

section Invert

variable {A B : Type}

theorem inSim_bind {x : Except Halt B} {f : B → Except NetHalt A} {a : A} :
    (inSim x >>= f) = .ok a ↔ ∃ b, x = .ok b ∧ f b = .ok a := by
  rw [Except.bind_eq_ok_iff]
  cases x with
  | error e => simp [inSim, Except.mapError]
  | ok b => simp [inSim, Except.mapError]

theorem inNet_bind {x : Except NetPanic B} {f : B → Except NetHalt A} {a : A} :
    (inNet x >>= f) = .ok a ↔ ∃ b, x = .ok b ∧ f b = .ok a := by
  rw [Except.bind_eq_ok_iff]
  cases x with
  | error e => simp [inNet, Except.mapError]
  | ok b => simp [inNet, Except.mapError]

/-- `Net` can be borrowed. -/
def NetFree (s : NetCx V Q P) : Prop := ∃ sim, s.sim.withSimulator netTy = .ok sim

theorem withNet_bind {s : NetCx V Q P} {f : Unit → Except NetHalt A} {a : A} :
    (s.withNet >>= f) = .ok a ↔ s.NetFree ∧ f () = .ok a := by
  unfold withNet NetFree
  rw [bind_assoc, inSim_bind]
  constructor
  · rintro ⟨sim, h, h'⟩; exact ⟨⟨sim, h⟩, h'⟩
  · rintro ⟨⟨sim, h⟩, h'⟩; exact ⟨sim, h, h'⟩

end Invert

variable [KeyedQueue Q Loc Instant]

/-- The message `d` is delivered from the future of `id`: the `Sleep` at `loc` is dropped, and `Net` borrowed. -/
structure Delivers (s : NetCx V Q P) (sim : SimCx V Q) (id : Id) (d : Delivery) (loc : Loc)
    (s' : NetCx V Q P) : Prop where
  ready : ∀ t w, sim.ts.sleeps loc ≠ some ⟨t, .waiting w⟩
  steps : ∃ sim₁, sim.step (.user (.dropSleep loc)) = .ok sim₁ ∧ sim₁.step (.user (.withSimulator netTy)) =
    .ok s'.sim
  eq : s' = { s with
    sim := s'.sim
    phase := Function.update s.phase id (some .delivered)
    netSleep := Function.update s.netSleep loc false
    net := s.net.deliver id s.now d }

/-- The future of `id` returns `Poll::Pending`. -/
structure Waits (s : NetCx V Q P) (sim : SimCx V Q) (id : Id) (loc : Loc) (s' : NetCx V Q P) : Prop where
  waiting : ∃ t w, sim.ts.sleeps loc = some ⟨t, .waiting w⟩
  step : sim.step (.user (.done none)) = .ok s'.sim
  eq : s' = { s with sim := s'.sim, phase := Function.update s.phase id (some (.sleeping loc)) }

inductive Next (f : SendFunction) (s : NetCx V Q P) : NetLabel V P → NetCx V Q P → Prop
  -- the simulation, and user code other than calls of the net
  | sim (op : Op V) (sim : SimCx V Q) (hu : s.userCode = true) (hp : s.permits op = true)
      (h : s.sim.step (.user op) = .ok sim) : Next f s (.sim (.user op)) { s with sim := sim }
  | run (order : List Id) (sim : SimCx V Q) (hd : s.dropsNet = false) (h : s.sim.step (.run order) = .ok sim) :
      Next f s (.sim (.run order)) { s with sim := sim }
  | dropNet (order : List Id) (sim : SimCx V Q) (hd : s.dropsNet = true) (h : s.sim.step (.run order) = .ok sim) :
      Next f s (.sim (.run order)) { s with sim := sim, net := s.net.dropNet }
  -- calls of user code
  | addrInUse (port : Id) (ty : TypeId) (owner : Option Id) (e : AddrInUseError) (hu : s.userCode = true)
      (hn : s.NetFree)
      (h : s.net.openSocket (⟨s.sim.currentNode, port⟩, ty) = .error e) :
        Next f s (.user (.openSocket port ty owner)) s
  | openSocket (port : Id) (ty : TypeId) (owner : Option Id) (r : InboxRc) (net : Net P) (hu : s.userCode = true)
      (hn : s.NetFree) (ho : owner.all s.canOwn = true)
      (h : s.net.openSocket (⟨s.sim.currentNode, port⟩, ty) = .ok (r, net)) :
      Next f s (.user (.openSocket port ty owner)) { s with net := net, owner := Function.update s.owner r owner }
  | dropSocket (r : InboxRc) (sock : Socket) (net : Net P) (hu : s.userCode = true) (hn : s.NetFree)
      (hs : s.net.sockets r = some sock) (h : s.net.dropSocket r sock = .ok net) :
      Next f s (.user (.dropSocket r)) { s with net := net }
  | moveSocket (r : InboxRc) (owner : Option Id) (hu : s.userCode = true) (hs : s.net.sockets r ≠ none)
      (ho : owner.all s.canOwn = true) :
      Next f s (.user (.moveSocket r owner)) { s with owner := Function.update s.owner r owner }
  | receive (r : InboxRc) (hu : s.userCode = true) (hs : s.net.sockets r ≠ none) :
      Next f s (.user (.receive r)) { s with net := s.net.receive r }
  | pollReceive (r : InboxRc) (clone : Option P) (key : Key) (net : Net P) (hu : s.userCode = true)
      (hk : s.net.created r = some key) (h0 : 0 < s.net.receivers r)
        (h : s.net.pollReceive r key.2 clone = .ok net) :
      Next f s (.user (.pollReceive r clone)) { s with net := net }
  | dropReceive (r : InboxRc) (hu : s.userCode = true) (h0 : 0 < s.net.receivers r) :
      Next f s (.user (.dropReceive r)) { s with net := s.net.dropReceive r }
  | newPacket (src dst : Addr) (packet : Packet P) (level : ServiceLevel) (hu : s.userCode = true) :
      Next f s (.user (.newPacket src dst packet level)) { s with net := (s.net.newPacket src dst packet level).2 }
  | clonePacket (rc : PacketRc) (hu : s.userCode = true) (h0 : 0 < s.net.held rc) :
      Next f s (.user (.clonePacket rc)) { s with net := s.net.clonePacket rc }
  | dropPacket (rc : PacketRc) (hu : s.userCode = true) (h0 : 0 < s.net.held rc) :
      Next f s (.user (.dropPacket rc)) { s with net := s.net.dropPacket rc }
  | sendCustom (op : NetOp P) (src dst : Addr) (packet : Packet P) (level : ServiceLevel) (hu : s.userCode = true)
      (hf : f = .custom) : Next f s (.user op)
        { s with net := (s.net.newPacket src dst packet level).2.note (.sent s.net.packetCount s.now) }
  | sendPerfect (op : NetOp P) (src dst : Addr) (packet : Packet P) (level : ServiceLevel) (latency : Duration)
      (t : Instant) (id : Id) (sim : SimCx V Q) (hu : s.userCode = true) (hf : f = .perfectConnectivity latency)
      (ht : after s.now latency = .ok t) (h : s.sim.spawnTaskOnNode initNode = .ok (id, sim)) :
      Next f s (.user op) { s with
        sim := sim
        phase := Function.update s.phase id (some .unpolled)
        net := ((s.net.newPacket src dst packet level).2.note (.sent s.net.packetCount s.now)).enqueuePacket id t
          s.net.packetCount (.new src dst packet level) }
  | enqueuePacket (t : Instant) (rc : PacketRc) (w : WrappedPacket P) (id : Id) (sim : SimCx V Q)
      (hu : s.userCode = true)
      (hw : s.net.packets rc = some w) (h0 : 0 < s.net.held rc)
        (h : s.sim.spawnTaskOnNode initNode = .ok (id, sim)) :
      Next f s (.user (.enqueuePacket t rc)) { s with
        sim := sim
        phase := Function.update s.phase id (some .unpolled)
        net := s.net.enqueuePacket id t rc w }
  | enqueueError (t : Instant) (dst : Addr) (ty : TypeId) (kind : ErrorKind) (id : Id) (sim : SimCx V Q)
      (hu : s.userCode = true) (h : s.sim.spawnTaskOnNode initNode = .ok (id, sim)) :
      Next f s (.user (.enqueueError t dst ty kind)) { s with
        sim := sim
        phase := Function.update s.phase id (some .unpolled)
        net := s.net.enqueueError id t dst ty kind }
  -- the callback of `Net`
  | drain (r : InboxRc) (key : Key) (hs : s.inStartNode = true) (hk : s.net.inboxes key = some r)
      (hc : s.net.created r = some key) (hn : key.1.node = s.sim.currentNode) :
      Next f s (.drain r) { s with net := s.net.drain r }
  -- the futures of `enqueue`
  | firstPoll (loc : Loc) (v : V) (caller : NodeId) (rest : List (Frame V)) (t : Task) (d : Delivery)
      (sim₁ sim₂ : SimCx V Q)
      (s' : NetCx V Q P) (hk : s.sim.stack = .poll caller :: rest) (hr : s.sim.ex.running = some t)
      (hp : s.phase t.id = some .unpolled) (hd : s.net.inFlight t.id = some d)
      (h1 : s.sim.step (.user (.newSleep loc d.at_)) = .ok sim₁)
      (h2 : sim₁.step (.user (.pollSleep loc (.task t.id))) = .ok sim₂)
      (h : Waits { s with sim := sim₁, netSleep := Function.update s.netSleep loc true } sim₂ t.id loc s' ∨
        Delivers { s with sim := sim₁, netSleep := Function.update s.netSleep loc true } sim₂ t.id d loc s') :
      Next f s (.delivery loc v) s'
  | nextPoll (l loc : Loc) (v : V) (caller : NodeId) (rest : List (Frame V)) (t : Task) (d : Delivery)
      (sim₂ : SimCx V Q)
      (s' : NetCx V Q P) (hk : s.sim.stack = .poll caller :: rest) (hr : s.sim.ex.running = some t)
      (hp : s.phase t.id = some (.sleeping loc)) (hd : s.net.inFlight t.id = some d)
      (h2 : s.sim.step (.user (.pollSleep loc (.task t.id))) = .ok sim₂)
      (h : Waits s sim₂ t.id loc s' ∨ Delivers s sim₂ t.id d loc s') : Next f s (.delivery l v) s'
  | returns (l : Loc) (v : V) (caller : NodeId) (rest : List (Frame V)) (t : Task) (sim : SimCx V Q)
      (hk : s.sim.stack = .poll caller :: rest) (hr : s.sim.ex.running = some t)
        (hp : s.phase t.id = some .delivered)
      (h : s.sim.step (.user (.done (some v))) = .ok sim) : Next f s (.delivery l v) { s with sim := sim }
  | discard (l : Loc) (v : V) (id : Id) (post : Bool) (caller : NodeId) (rest : List (Frame V))
      (ph : DeliveryPhase) (s' : NetCx V Q P)
      (hk : s.sim.stack = .discard id post caller :: rest) (hp : s.phase id = some ph)
        (hph : ∀ loc, ph ≠ .sleeping loc)
      (h : s' = { s with
        phase := Function.update s.phase id none
        net := match s.net.inFlight id with
          | none => s.net
          | some d => s.net.abortDelivery id d }) : Next f s (.delivery l v) s'
  | discardSleep (l loc : Loc) (v : V) (id : Id) (post : Bool) (caller : NodeId) (rest : List (Frame V))
      (sim : SimCx V Q)
      (s' : NetCx V Q P) (hk : s.sim.stack = .discard id post caller :: rest)
        (hp : s.phase id = some (.sleeping loc))
      (h : s.sim.step (.user (.dropSleep loc)) = .ok sim)
      (he : s' = { s with
        sim := sim
        netSleep := Function.update s.netSleep loc false
        phase := Function.update s.phase id none
        net := match s.net.inFlight id with
          | none => s.net
          | some d => s.net.abortDelivery id d }) : Next f s (.delivery l v) s'

section Inversion

variable {f : SendFunction} {s s' : NetCx V Q P}

omit [KeyedQueue Q Loc Instant] in
theorem spawnDelivery_bind {A : Type} {g : Id × NetCx V Q P → Except NetHalt A} {a : A} :
    (s.spawnDelivery >>= g) = .ok a ↔ ∃ id sim, s.sim.spawnTaskOnNode initNode = .ok (id, sim) ∧
      g (id, { s with sim := sim, phase := Function.update s.phase id (some .unpolled) }) = .ok a := by
  unfold spawnDelivery
  rw [bind_assoc, inSim_bind]
  constructor
  · rintro ⟨⟨id, sim⟩, h, h'⟩; exact ⟨id, sim, h, h'⟩
  · rintro ⟨id, sim, h, h'⟩; exact ⟨(id, sim), h, h'⟩

omit [KeyedQueue Q Loc Instant] in
theorem enqueuePacket_ok {t : Instant} {rc : PacketRc} (h : s.enqueuePacket t rc = .ok s') :
    ∃ w id sim, s.net.packets rc = some w ∧ 0 < s.net.held rc ∧ s.sim.spawnTaskOnNode initNode = .ok (id, sim) ∧
      s' = { s with
        sim := sim
        phase := Function.update s.phase id (some .unpolled)
        net := s.net.enqueuePacket id t rc w } := by
  unfold enqueuePacket at h
  split at h
  · cases h
  · rename_i w hw
    split_ifs at h with h0
    obtain ⟨id, sim, hs, h⟩ := spawnDelivery_bind.mp h
    cases h
    exact ⟨w, id, sim, hw, h0, hs, rfl⟩

theorem sendWrapped_next {op : NetOp P} {src dst : Addr} {packet : Packet P} {level : ServiceLevel}
    (hu : s.userCode = true)
    (h : s.sendWrapped f src dst packet level = .ok s') : Next f s (.user op) s' := by
  unfold sendWrapped at h
  split_ifs at h
  cases f with
  | custom =>
    cases h
    exact .sendCustom op src dst packet level hu rfl
  | perfectConnectivity latency =>
    obtain ⟨t, ht, h⟩ := inNet_bind.mp h
    obtain ⟨w, id, sim, hw, -, hs, rfl⟩ := enqueuePacket_ok h
    obtain rfl : w = .new src dst packet level := by simpa [Net.newPacket, eq_comm] using hw
    exact .sendPerfect op src dst packet level latency t id sim hu rfl ht hs

theorem userOp_next {op : NetOp P} (hu : s.userCode = true) (h : s.userOp f op = .ok s') :
    Next f s (.user op) s' := by
  cases op with
  | openSocket port ty owner =>
    simp only [userOp] at h
    split_ifs at h with ho
    obtain ⟨hn, h⟩ := withNet_bind.mp h
    split at h
    · rename_i e he
      cases h
      exact .addrInUse port ty owner e hu hn he
    · rename_i r net he
      cases h
      exact .openSocket port ty owner r net hu hn ho he
  | dropSocket r =>
    simp only [userOp, dropSocket] at h
    split at h
    · cases h
    · rename_i sock hs
      obtain ⟨hn, h⟩ := withNet_bind.mp h
      obtain ⟨net, hd, h⟩ := inNet_bind.mp h
      cases h
      exact .dropSocket r sock net hu hn hs hd
  | moveSocket r owner =>
    simp only [userOp] at h
    split_ifs at h with hc
    cases h
    rw [Bool.and_eq_true] at hc
    exact .moveSocket r owner hu (Option.isSome_iff_ne_none.mp hc.1) hc.2
  | receive r =>
    simp only [userOp] at h
    split_ifs at h with hs
    cases h
    exact .receive r hu (Option.isSome_iff_ne_none.mp hs)
  | pollReceive r clone =>
    simp only [userOp] at h
    split at h
    · cases h
    · rename_i key hk
      split_ifs at h with h0
      obtain ⟨net, hp, h⟩ := inNet_bind.mp h
      cases h
      exact .pollReceive r clone key net hu hk h0 hp
  | dropReceive r =>
    simp only [userOp] at h
    split_ifs at h with h0
    cases h
    exact .dropReceive r hu h0
  | newPacket src dst packet level =>
    cases h
    exact .newPacket src dst packet level hu
  | clonePacket rc =>
    simp only [userOp] at h
    split_ifs at h with h0
    cases h
    exact .clonePacket rc hu h0
  | dropPacket rc =>
    simp only [userOp] at h
    split_ifs at h with h0
    cases h
    exact .dropPacket rc hu h0
  | send port dst packet level =>
    simp only [userOp] at h
    split_ifs at h
    exact sendWrapped_next hu h
  | socketSend r dst packet level =>
    simp only [userOp] at h
    split at h
    · cases h
    · split_ifs at h
      exact sendWrapped_next hu h
  | enqueuePacket t rc =>
    simp only [userOp] at h
    split_ifs at h
    obtain ⟨w, id, sim, hw, h0, hs, rfl⟩ := enqueuePacket_ok h
    exact .enqueuePacket t rc w id sim hu hw h0 hs
  | enqueueError t dst ty kind =>
    simp only [userOp, enqueueError] at h
    split_ifs at h
    obtain ⟨id, sim, hs, h⟩ := spawnDelivery_bind.mp h
    cases h
    exact .enqueueError t dst ty kind id sim hu hs

theorem pollDelivery_ok {id : Id} {d : Delivery} {loc : Loc} (h : s.pollDelivery id d loc = .ok s') :
    ∃ sim, s.sim.step (.user (.pollSleep loc (.task id))) = .ok sim ∧
    (Waits s sim id loc s' ∨ Delivers s sim id d loc s') := by
  unfold pollDelivery at h
  obtain ⟨sim, h1, h⟩ := inSim_bind.mp h
  refine ⟨sim, h1, ?_⟩
  split at h
  · rename_i t w hw
    obtain ⟨sim', h2, h⟩ := inSim_bind.mp h
    cases h
    exact Or.inl ⟨⟨t, w, hw⟩, h2, rfl⟩
  · rename_i hw
    obtain ⟨sim₁, h2, h⟩ := inSim_bind.mp h
    obtain ⟨sim₂, h3, h⟩ := inSim_bind.mp h
    cases h
    exact Or.inr ⟨fun t w => hw t w, ⟨sim₁, h2, h3⟩, rfl⟩

theorem discardDelivery_next {l : Loc} {v : V} {id : Id} {post : Bool} {caller : NodeId} {rest : List (Frame V)}
    (hk : s.sim.stack = .discard id post caller :: rest) (h : s.discardDelivery id = .ok s') :
    Next f s (.delivery l v) s' := by
  unfold discardDelivery at h
  dsimp only at h
  split at h
  · cases h
  · rename_i loc hp
    obtain ⟨sim, hd, h⟩ := inSim_bind.mp h
    cases h
    exact .discardSleep l loc v id post caller rest sim _ hk hp hd rfl
  · rename_i ph hne hp
    cases h
    exact .discard l v id post caller rest ph _ hk hp hne rfl

theorem delivery_next {l : Loc} {v : V} (h : s.delivery l v = .ok s') : Next f s (.delivery l v) s' := by
  unfold delivery at h
  split at h
  · rename_i caller rest hk
    split at h
    · cases h
    · rename_i t hr
      split at h
      · rename_i d hp hd
        obtain ⟨sim₁, h1, h⟩ := inSim_bind.mp h
        obtain ⟨sim₂, h2, h⟩ := pollDelivery_ok h
        exact .firstPoll l v caller rest t d sim₁ sim₂ s' hk hr hp hd h1 h2 h
      · rename_i loc d hp hd
        obtain ⟨sim₂, h2, h⟩ := pollDelivery_ok h
        exact .nextPoll l loc v caller rest t d sim₂ s' hk hr hp hd h2 h
      · rename_i hp
        obtain ⟨sim, hs, h⟩ := inSim_bind.mp h
        cases h
        exact .returns l v caller rest t sim hk hr hp hs
      · cases h
  · rename_i id post caller rest hk
    exact discardDelivery_next hk h
  · cases h

omit [KeyedQueue Q Loc Instant] in
theorem onNode_spec {r : InboxRc} (h : s.onNode r = true) :
    ∃ key, s.net.created r = some key ∧ s.net.inboxes key = some r ∧ key.1.node = s.sim.currentNode := by
  unfold onNode at h
  cases hc : s.net.created r with
  | none => rw [hc] at h; cases h
  | some key => exact ⟨key, rfl, by simpa [hc] using h⟩

/-- **Inversion**: a step that succeeds is one of the cases of `Next`. -/
theorem step_next {l : NetLabel V P} (h : s.step f l = .ok s') : Next f s l s' := by
  cases l with
  | sim l =>
    cases l with
    | user op =>
      simp only [step, simStep] at h
      split_ifs at h with hc
      rw [Bool.and_eq_true] at hc
      obtain ⟨sim, hs, h⟩ := inSim_bind.mp h
      cases h
      exact .sim op sim hc.1 hc.2 hs
    | run order =>
      simp only [step, simStep] at h
      obtain ⟨sim, hs, h⟩ := inSim_bind.mp h
      cases h
      cases hd : s.dropsNet with
      | true => exact .dropNet order sim hd hs
      | false => exact .run order sim hd hs
  | user op =>
    simp only [step] at h
    split_ifs at h with hu
    exact userOp_next hu h
  | drain r =>
    simp only [step] at h
    split_ifs at h with hc
    cases h
    rw [Bool.and_eq_true] at hc
    obtain ⟨key, hk, hin, hn⟩ := onNode_spec hc.2
    exact .drain r key hc.1 hin hk hn
  | delivery loc v => exact delivery_next h

end Inversion

/-! ## What a step is in the parts -/

end NetCx

namespace Net

variable {P : Type}

/-- A run of acts. -/
abbrev Acts (n n' : Net P) : Prop := Relation.ReflTransGen Act n n'

theorem Acts.registry {n n' : Net P} (h : Acts n n') (hR : n.Registry) : n'.Registry := by
  induction h with
  | refl => exact hR
  | tail _ h ih => exact ih.act h

theorem Acts.typed {n n' : Net P} (h : Acts n n') (hR : n.Registry) (hT : n.Typed) : n'.Typed := by
  induction h with
  | refl => exact hT
  | tail h' h ih => exact ih.act (Acts.registry h' hR) h

theorem Acts.kept {n n' : Net P} (h : Acts n n') (hR : n.Registry) {rc : PacketRc} (hK : n.Kept rc) :
    n'.Kept rc := by
  induction h with
  | refl => exact hK
  | tail h' h ih => exact ih.act (Acts.registry h' hR) h

end Net

namespace SimCx

variable {V Q : Type} [KeyedQueue Q Loc Instant] {s s' : SimCx V Q}

theorem Base.steps (hB : s.Base) (h : Machine.Steps step s s') : s'.Base := h.inv (fun _ _ _ => step_base) hB

/-- A task stays known. -/
theorem Base.on_steps (hB : s.Base) (h : Machine.Steps step s s') {id : Id} {n : NodeId} (ho : s.ex.On id n) :
    s'.ex.On id n :=
  h.inv_of (J := Base) (I := fun s => s.ex.On id n) (fun _ _ _ => step_base)
    (fun _ _ _ hB ho h => (step_next hB h).on hB ho) hB ho

theorem Base.known_steps (hB : s.Base) (h : Machine.Steps step s s') {id : Id} (ho : s.ex.state id ≠ .taskEnd) :
    s'.ex.state id ≠ .taskEnd := (hB.on_steps h ⟨ho, rfl⟩).1

/-- The teardown has dropped the simulator of type `ty`. -/
def Without (ty : SimTy) (s : SimCx V Q) : Prop :=
  s.ex.finalStopped = true ∧ ∀ i, s.simulatorsByType ty = some i → s.simulators.length ≤ i

theorem Without.step {ty : SimTy} {l : Label V} (hW : s.Without ty) (hB : s.Base) (h : s.step l = .ok s') :
    s'.Without ty := by
  have hn := step_next hB h
  refine ⟨hn.finalStopped hB hW.1, ?_⟩
  cases hn with
  | addSimulator ty' hu hc hlen hf hb => rw [hW.1] at hf; cases hf
  | withSimulator | putBack | simsNext => simpa using hW.2
  | dropSim order time rest sim hk hc hs =>
    exact fun i hi => (by simp : s.simulators.dropLast.length ≤ s.simulators.length).trans (hW.2 i hi)
  | _ => exact hW.2

theorem Without.steps {ty : SimTy} (hW : s.Without ty) (hB : s.Base) (h : Machine.Steps SimCx.step s s') :
    s'.Without ty :=
  h.inv_of (J := Base) (fun _ _ _ => step_base) (fun _ _ _ hB hW => hW.step hB) hB hW

omit [KeyedQueue Q Loc Instant] in
theorem Without.not_free {ty : SimTy} (hW : s.Without ty) : s.withSimulator ty ≠ .ok s' := by
  intro h
  simp only [SimCx.withSimulator] at h
  obtain ⟨-, h⟩ := borrow_bind.mp h
  split at h
  · cases h
  · rename_i i hi
    rw [List.getElem?_eq_none (hW.2 i hi)] at h
    cases h

theorem step_newSleep {loc : Loc} {d : Instant} (h : s.step (.user (.newSleep loc d)) = .ok s') :
    s.ts.sleeps loc = none ∧ s' = { s with ts := s.ts.newSleep loc d } := by
  simp only [step] at h
  split at h
  · cases h
  · split_ifs at h
    simp only [userOp] at h
    split_ifs at h with hs
    cases h
    exact ⟨hs, rfl⟩

theorem step_pollSleep {loc : Loc} {id : Id} (h : s.step (.user (.pollSleep loc (.task id))) = .ok s') :
    ∃ sl ts, s.ts.sleeps loc = some sl ∧ s.ts.pollState loc sl.deadline (.task id) sl.state = .ok ts ∧
      s' = { s with ts := ts } := by
  simp only [step] at h
  split at h
  · cases h
  · split_ifs at h
    simp only [userOp] at h
    split_ifs at h
    unfold pollSleep at h
    split at h
    · cases h
    · rename_i sl hs
      have key : ∃ ts, s.ts.pollState loc sl.deadline (.task id) sl.state = .ok ts ∧ s' = { s with ts := ts } := by
        dsimp only at h
        split at h
        · obtain ⟨ts, hp, h⟩ := call_bind.mp (borrow_bind.mp h).2
          exact ⟨ts, hp, (Except.ok.inj h).symm⟩
        · obtain ⟨ts, hp, h⟩ := call_bind.mp h
          exact ⟨ts, hp, (Except.ok.inj h).symm⟩
      obtain ⟨ts, hp, rfl⟩ := key
      exact ⟨sl, ts, hs, hp, rfl⟩

theorem step_dropSleep {loc : Loc} (h : s.step (.user (.dropSleep loc)) = .ok s') :
    s.cell = .free ∧ s' = { s with ts := s.ts.dropSleep loc } := by
  simp only [step] at h
  split at h
  · cases h
  · split_ifs at h
    simp only [userOp] at h
    split_ifs at h
    obtain ⟨hc, h⟩ := borrow_bind.mp h
    cases h
    exact ⟨hc, rfl⟩

omit [KeyedQueue Q Loc Instant] in
theorem withSimulator_ok {ty : SimTy} (h : s.withSimulator ty = .ok s') : s.cell = .free ∧ ∃ i sim,
    s.simulatorsByType ty = some i ∧ s.simulators[i]? = some (some sim) ∧
      s' = { s with simulators := s.simulators.set i none, stack := .withSim i sim :: s.stack } := by
  simp only [withSimulator] at h
  obtain ⟨hc, h⟩ := borrow_bind.mp h
  split at h
  · cases h
  · rename_i i hi
    split at h
    · cases h
    · cases h
    · rename_i sim hs
      cases h
      exact ⟨hc, i, sim, hi, hs, rfl⟩

theorem step_withSimulator {ty : SimTy} (h : s.step (.user (.withSimulator ty)) = .ok s') :
    s.withSimulator ty = .ok s' := by
  simp only [step] at h
  split at h
  · cases h
  · split_ifs at h
    exact h

/-- A spawn is a step of user code. -/
theorem step_spawn {node : NodeId} {id : Id} (hu : s.InUser) (h : s.spawnTaskOnNode node = .ok (id, s')) :
    s.step (.user (.spawn node)) = .ok s' := by
  obtain ⟨f, rest, hk, hf⟩ := hu
  simp only [step, hk, hf, if_true, userOp, h]
  rfl

end SimCx

namespace NetCx

variable {V Q P : Type} [KeyedQueue Q Loc Instant] {f : SendFunction} {b : SimBuilder} {s s' : NetCx V Q P}
  {l : NetLabel V P}

omit [KeyedQueue Q Loc Instant] in
theorem inUser_of_userCode (hu : s.userCode = true) : s.sim.InUser := by
  unfold userCode at hu
  split at hu
  · cases hu
  · rename_i c rest hk; exact ⟨_, rest, hk, rfl⟩
  · rename_i id post c rest hk; exact ⟨_, rest, hk, rfl⟩
  · rename_i g rest h1 h2 hk; exact ⟨g, rest, hk, hu⟩

/-- What `Net` and the futures of `enqueue` call of the simulation. -/
inductive OfNet : Op V → Prop
  | spawn (node : NodeId) : OfNet (.spawn node)
  | newSleep (loc : Loc) (deadline : Instant) : OfNet (.newSleep loc deadline)
  | pollSleep (loc : Loc) (w : Waker) : OfNet (.pollSleep loc w)
  | dropSleep (loc : Loc) : OfNet (.dropSleep loc)
  | withSimulator (ty : SimTy) : OfNet (.withSimulator ty)
  | done (r : Option V) : OfNet (.done r)

/-- Calls of user code that a step with the label `l` can make. -/
abbrev CallsOf (l : NetLabel V P) (s s' : SimCx V Q) : Prop :=
  Machine.Steps (fun (m : SimCx V Q) (op : {op : Op V // OfNet op ∨ l = .sim (.user op)}) =>
    m.step (.user op)) s s'

/-- Every step is one of the runtime, or some calls of user code. -/
theorem Next.user_steps (h : Next f s l s') :
    (∃ order, l = .sim (.run order) ∧ s.sim.step (.run order) = .ok s'.sim) ∨ CallsOf l s.sim s'.sim := by
  have one : ∀ {m m' : SimCx V Q} {op : Op V}, OfNet op ∨ l = .sim (.user op) → m.step (.user op) = .ok m' →
      CallsOf l m m' := fun {m m' op} ho h => ⟨[⟨op, ho⟩], Machine.run_single.mpr h⟩
  have spawn : ∀ {id : Id} {sim : SimCx V Q}, s.userCode = true → s.sim.spawnTaskOnNode initNode = .ok (id, sim) →
      CallsOf l s.sim sim :=
    fun hu h => one (Or.inl (.spawn _)) (SimCx.step_spawn (inUser_of_userCode hu) h)
  have poll : ∀ {s₀ : NetCx V Q P} {sim : SimCx V Q} {id : Id} {d : Delivery} {loc : Loc},
      Waits s₀ sim id loc s' ∨ Delivers s₀ sim id d loc s' → CallsOf l sim s'.sim := by
    rintro s₀ sim id d loc (h | h)
    · exact one (Or.inl (.done _)) h.step
    · obtain ⟨sim₁, h1, h2⟩ := h.steps
      exact (one (Or.inl (.dropSleep _)) h1).trans (one (Or.inl (.withSimulator _)) h2)
  cases h with
  | run order sim hd h | dropNet order sim hd h => exact Or.inl ⟨order, rfl, h⟩
  | sim op sim hu hp h => exact Or.inr (one (Or.inr rfl) h)
  | sendPerfect op src dst packet level latency t id sim hu hf ht h => exact Or.inr (spawn hu h)
  | enqueuePacket t rc w id sim hu hw h0 h => exact Or.inr (spawn hu h)
  | enqueueError t dst ty kind id sim hu h => exact Or.inr (spawn hu h)
  | firstPoll loc v caller rest t d sim₁ sim₂ _ hk hr hp hd h1 h2 h =>
    exact Or.inr (((one (Or.inl (.newSleep _ _)) h1).trans (one (Or.inl (.pollSleep _ _)) h2)).trans (poll h))
  | nextPoll l loc v caller rest t d sim₂ _ hk hr hp hd h2 h =>
    exact Or.inr ((one (Or.inl (.pollSleep _ _)) h2).trans (poll h))
  | returns l v caller rest t sim hk hr hp h => exact Or.inr (one (Or.inl (.done _)) h)
  | discard l v id post caller rest ph _ hk hp hph h => rw [h]; exact Or.inr (.refl _)
  | discardSleep l loc v id post caller rest sim _ hk hp h he =>
    rw [he]
    exact Or.inr (one (Or.inl (.dropSleep _)) h)
  | _ => exact Or.inr (.refl _)

/-- Every step is a run of the simulation. -/
theorem Next.sim_steps (h : Next f s l s') : Machine.Steps SimCx.step s.sim s'.sim := by
  rcases h.user_steps with ⟨order, -, hst⟩ | hst
  · exact .single hst
  · exact hst.induct (P := Machine.Steps SimCx.step s.sim) (.refl _) fun _ _ _ _ hm h => hm.tail h

theorem Reachable.sim (hr : Reachable f b s) : SimCx.Reachable b s.sim := by
  refine hr.induct (P := fun s : NetCx V Q P => SimCx.Reachable b s.sim) ?_ fun _ _ _ _ hr h => ?_
  · exact Machine.Steps.refl _
  · exact hr.trans (step_next h).sim_steps

/-- A future of `enqueue` that is in flight, in both parts. -/
def InFlight (n : Net P) (phase : Id → Option DeliveryPhase) : Prop :=
  ∀ id, n.inFlight id ≠ none ↔ phase id = some .unpolled ∨ ∃ loc, phase id = some (.sleeping loc)

omit [KeyedQueue Q Loc Instant] in
theorem InFlight.update {n n' : Net P} {phase : Id → Option DeliveryPhase} {id : Id} {ph : Option DeliveryPhase}
    {d : Option Delivery} (h : InFlight n phase) (hn : n'.inFlight = Function.update n.inFlight id d)
    (hd : d ≠ none ↔ ph = some .unpolled ∨ ∃ loc, ph = some (.sleeping loc)) :
    InFlight n' (Function.update phase id ph) := by
  intro id'
  rw [hn]
  by_cases hid : id' = id
  · subst hid; simpa using hd
  · simpa [hid] using h id'

/-- The net and the simulation agree: the futures of `enqueue` that are not past their end are those in flight. -/
structure Linked (b : SimBuilder) (s : NetCx V Q P) : Prop where
  reach : SimCx.Reachable b s.sim
  known : ∀ id, s.phase id ≠ none → s.sim.ex.state id ≠ .taskEnd
  inFlight : InFlight s.net s.phase
  dropped : s.net.dropped = true → s.sim.Without netTy
  registry : s.net.Registry
  typed : s.net.Typed

theorem Linked.not_dropped (hL : s.Linked b) (hn : s.NetFree) : s.net.dropped = false := by
  cases hd : s.net.dropped with
  | false => rfl
  | true =>
    obtain ⟨sim, h⟩ := hn
    exact absurd h (hL.dropped hd).not_free

/-- The id of a new task is none of a future of `enqueue`. -/
theorem Linked.fresh (hL : s.Linked b) {id : Id} {sim : SimCx V Q}
    (h : s.sim.spawnTaskOnNode initNode = .ok (id, sim)) :
    s.phase id = none ∧ s.net.inFlight id = none ∧ sim.ex.state id ≠ .taskEnd := by
  have hI := hL.reach.base.exec
  obtain ⟨-, -, hid, -, rfl⟩ := SimCx.spawnTaskOnNode_ok hI h
  have hp : s.phase id = none := by
    by_contra hp
    exact hL.known id hp (hI.fresh id (hid ▸ Nat.lt_succ_self _))
  refine ⟨hp, ?_, by simp⟩
  by_contra hin
  rcases (hL.inFlight id).mp hin with h | ⟨loc, h⟩ <;> rw [hp] at h <;> cases h

theorem Waits.net {sim : SimCx V Q} {id : Id} {loc : Loc} (h : Waits s sim id loc s') : s'.net = s.net := by
  rw [h.eq]

theorem Delivers.net {sim : SimCx V Q} {id : Id} {d : Delivery} {loc : Loc} (h : Delivers s sim id d loc s') :
    s'.net = s.net.deliver id s.now d := by rw [h.eq]

/-- Every step is a run of acts of the net, or the cloning of a packet. -/
theorem Next.acts (h : Next f s l s') (hL : s.Linked b) :
    Net.Acts s.net s'.net ∨ ∃ rc, l = .user (.clonePacket rc) ∧ s'.net = s.net.clonePacket rc := by
  have one : ∀ {n : Net P}, Net.Act s.net n → Net.Acts s.net n := fun h => .single h
  cases h with
  | sim | run | addrInUse | moveSocket | returns => exact Or.inl .refl
  | dropNet order sim hd h => exact Or.inl (one .dropNet)
  | openSocket port ty owner r net hu hn ho h => exact Or.inl (one (.openSocket _ r net (hL.not_dropped hn) h))
  | dropSocket r sock net hu hn hs h => exact Or.inl (one (.dropSocket r sock net hs h))
  | receive r hu hs => exact Or.inl (one (.receive r hs))
  | pollReceive r clone key net hu hk h0 h => exact Or.inl (one (.pollReceive r key clone net h0 hk h))
  | dropReceive r hu h0 => exact Or.inl (one (.dropReceive r h0))
  | newPacket src dst packet level hu => exact Or.inl (one (.newPacket src dst packet level))
  | clonePacket rc hu h0 => exact Or.inr ⟨rc, rfl, rfl⟩
  | dropPacket rc hu h0 => exact Or.inl (one (.dropPacket rc h0))
  | sendCustom op src dst packet level hu hf =>
    exact Or.inl ((one (.newPacket src dst packet level)).tail (.sent _ _))
  | sendPerfect op src dst packet level latency t id sim hu hf ht h =>
    refine Or.inl (((one (.newPacket src dst packet level)).tail (.sent _ _)).tail
      (.enqueuePacket id t _ _ ?_ ?_ ?_))
    · simp [Net.newPacket]
    · simp [Net.newPacket]
    · exact (hL.fresh h).2.1
  | enqueuePacket t rc w id sim hu hw h0 h => exact Or.inl (one (.enqueuePacket id t rc w h0 hw (hL.fresh h).2.1))
  | enqueueError t dst ty kind id sim hu h => exact Or.inl (one (.enqueueError id t dst ty kind (hL.fresh h).2.1))
  | drain r key hs hk hc hn => exact Or.inl (one (.drain r key hk))
  | firstPoll loc v caller rest t d sim₁ sim₂ _ hk hr hp hd h1 h2 h =>
    rcases h with h | h
    · rw [h.net]; exact Or.inl .refl
    · rw [h.net]; exact Or.inl (one (.deliver t.id _ d hd))
  | nextPoll l loc v caller rest t d sim₂ _ hk hr hp hd h2 h =>
    rcases h with h | h
    · rw [h.net]; exact Or.inl .refl
    · rw [h.net]; exact Or.inl (one (.deliver t.id _ d hd))
  | discard l v id post caller rest ph _ hk hp hph h
  | discardSleep l loc v id post caller rest sim _ hk hp hst h =>
    rw [h]
    dsimp only
    split
    · exact Or.inl .refl
    · rename_i d hd
      exact Or.inl (one (.abortDelivery id d hd))

theorem Waits.inFlight {sim : SimCx V Q} {id : Id} {loc : Loc} (h : Waits s sim id loc s')
    (hI : InFlight s.net s.phase)
    {d : Delivery} (hd : s.net.inFlight id = some d) : InFlight s'.net s'.phase := by
  have hi : s.net.inFlight = Function.update s.net.inFlight id (some d) := by rw [← hd, Function.update_eq_self]
  rw [h.eq]
  exact hI.update hi (by simp)

theorem deliver_inFlight (n : Net P) (id : Id) (now : Instant) (d : Delivery) :
    (n.deliver id now d).inFlight = Function.update n.inFlight id none := by
  unfold Net.deliver
  dsimp only
  split
  · exact Net.lose_inFlight _ _ _
  · split_ifs
    · rfl
    · exact Net.lose_inFlight _ _ _

theorem Delivers.inFlight {sim : SimCx V Q} {id : Id} {d : Delivery} {loc : Loc} (h : Delivers s sim id d loc s')
    (hI : InFlight s.net s.phase) : InFlight s'.net s'.phase := by
  rw [h.eq]
  exact hI.update (deliver_inFlight _ _ _ _) (by simp)

/-- A field that neither the messages nor the receivers of an inbox are part of. -/
theorem pollReceive_frame {n n' : Net P} {r : InboxRc} {ty : TypeId} {clone : Option P} {A : Type} (g : Net P → A)
    (hb : ∀ (n : Net P) msgs, g (n.setBuffer r msgs) = g n)
    (hn : ∀ (n : Net P) o, (∀ id now msg into, o ≠ .attempt id now msg into) → g (n.note o) = g n)
    (hr : ∀ (n : Net P) rc, g (n.release rc) = g n) (hd : ∀ n : Net P, g (n.dropReceive r) = g n)
    (h : n.pollReceive r ty clone = .ok n') : g n' = g n := by
  unfold Net.pollReceive at h
  split at h
  · cases h; rfl
  · rename_i msg msgs hmsgs
    obtain ⟨m, hm, h⟩ := Except.bind_eq_ok_iff.mp h
    cases h
    rw [hd, ← hb n msgs]
    cases msg with
    | error kind => cases hm; exact hn _ _ (by rintro _ _ _ _ ⟨⟩)
    | packet rc =>
      simp only [Net.receiveMsg] at hm
      split at hm
      · cases hm
      · split_ifs at hm
        obtain ⟨⟨value, cloned⟩, -, hm⟩ := Except.bind_eq_ok_iff.mp hm
        cases hm
        exact (hn _ _ (by rintro _ _ _ _ ⟨⟩)).trans (hr _ _)

theorem deliver_dropped (n : Net P) (id : Id) (now : Instant) (d : Delivery) :
    (n.deliver id now d).dropped = n.dropped := by
  unfold Net.deliver
  dsimp only
  split
  · simp
  · split_ifs <;> simp

/-- No act but those of the futures changes what is in flight. -/
theorem Next.inFlight (h : Next f s l s') (hI : InFlight s.net s.phase) : InFlight s'.net s'.phase := by
  have keep : ∀ {n : Net P}, n.inFlight = s.net.inFlight → InFlight n s.phase :=
    fun hn id => by rw [hn]; exact hI id
  cases h with
  | openSocket port ty owner r net hu hn ho h =>
    unfold Net.openSocket at h
    split at h
    · cases h
    · simp only [Except.ok.injEq, Prod.mk.injEq] at h
      obtain ⟨rfl, rfl⟩ := h
      exact keep rfl
  | dropSocket r sock net hu hn hs h =>
    unfold Net.dropSocket at h
    split_ifs at h
    cases h
    exact keep (Net.collect_inFlight _ _)
  | pollReceive r clone key net hu hk h0 h =>
      exact keep (pollReceive_frame (·.inFlight) (fun _ _ => rfl) (fun _ _ _ => rfl) (fun _ _ => rfl)
        (fun _ => Net.collect_inFlight _ _) h)
  | dropReceive r hu h0 => exact keep (Net.collect_inFlight _ _)
  | sendPerfect op src dst packet level latency t id sim hu hf ht h => exact hI.update rfl (by simp)
  | enqueuePacket t rc w id sim hu hw h0 h => exact hI.update rfl (by simp)
  | enqueueError t dst ty kind id sim hu h => exact hI.update rfl (by simp)
  | drain r key hs hk hc hn =>
    refine keep ?_
    unfold Net.drain
    split
    · rfl
    · exact Net.lose_inFlight _ _ _
  | firstPoll loc v caller rest t d sim₁ sim₂ _ hk hr hp hd h1 h2 h =>
    rcases h with h | h
    · exact h.inFlight hI hd
    · exact h.inFlight hI
  | nextPoll l loc v caller rest t d sim₂ _ hk hr hp hd h2 h =>
    rcases h with h | h
    · exact h.inFlight hI hd
    · exact h.inFlight hI
  | discard l v id post caller rest ph _ hk hp hph h
  | discardSleep l loc v id post caller rest sim _ hk hp hst h =>
    rw [h]
    refine hI.update (d := none) ?_ (by simp)
    dsimp only
    split
    · rename_i hn
      rw [← hn, Function.update_eq_self]
    · exact Net.lose_inFlight _ _ _
  | _ => exact keep rfl

theorem Next.known (h : Next f s l s') (hL : s.Linked b) (id : Id) (hp : s'.phase id ≠ none) :
    s'.sim.ex.state id ≠ .taskEnd := by
  have keep : s.phase id ≠ none → s'.sim.ex.state id ≠ .taskEnd := fun h0 =>
    hL.reach.base.known_steps h.sim_steps (hL.known id h0)
  -- the phase of one task changes
  have upd : ∀ {i : Id} {ph : Option DeliveryPhase}, s'.phase = Function.update s.phase i ph →
      (ph ≠ none → s'.sim.ex.state i ≠ .taskEnd) → s'.sim.ex.state id ≠ .taskEnd := by
    intro i ph hph hi
    rw [hph] at hp
    by_cases hid : id = i
    · subst hid; exact hi (by simpa using hp)
    · exact keep (by simpa [hid] using hp)
  cases h with
  | sendPerfect op src dst packet level latency t i sim hu hf ht h => exact upd rfl fun _ => (hL.fresh h).2.2
  | enqueuePacket t rc w i sim hu hw h0 h => exact upd rfl fun _ => (hL.fresh h).2.2
  | enqueueError t dst ty kind i sim hu h => exact upd rfl fun _ => (hL.fresh h).2.2
  | firstPoll loc v caller rest t d sim₁ sim₂ _ hk hr hpt hd h1 h2 h =>
    have hkn := hL.reach.base.known_steps (Next.firstPoll loc v caller rest t d sim₁ sim₂ _ hk hr hpt hd h1 h2 h :
      Next f s _ s').sim_steps (hL.known t.id (by rw [hpt]; simp))
    rcases h with h | h <;> exact upd (by rw [h.eq]) fun _ => hkn
  | nextPoll l loc v caller rest t d sim₂ _ hk hr hpt hd h2 h =>
    have hkn := hL.reach.base.known_steps (Next.nextPoll l loc v caller rest t d sim₂ _ hk hr hpt hd h2 h :
      Next f s _ s').sim_steps (hL.known t.id (by rw [hpt]; simp))
    rcases h with h | h <;> exact upd (by rw [h.eq]) fun _ => hkn
  | discard l v i post caller rest ph _ hk hpt hph h
  | discardSleep l loc v i post caller rest sim _ hk hpt hst h =>
    refine upd (show s'.phase = Function.update s.phase i none by rw [h]) fun h0 => absurd rfl h0
  | _ => exact keep hp

/-- `ContextInstallGuard::destroy` drops the `Net` that is registered. -/
theorem dropsNet_without (hr : SimCx.Reachable b s.sim) (hd : s.dropsNet = true) {order : List Id}
    {sim : SimCx V Q} (h : s.sim.step (.run order) = .ok sim) : sim.Without netTy := by
  unfold dropsNet at hd
  split at hd
  · rename_i time rest hk
    have hlast : s.sim.simulators.getLast? = some (some netTy) := by simpa using hd
    have hf := hr.end_stopped (show s.sim.EndFrame time from Or.inl (by rw [hk]; exact List.mem_cons_self))
    have hslot := hr.slots.slot (s.sim.simulators.length - 1) netTy (by rw [← List.getLast?_eq_getElem?, hlast])
    have hn := SimCx.step_next hr.base h
    refine ⟨hn.finalStopped hr.base hf, ?_⟩
    obtain ⟨order', -, h⟩ := SimCx.step_runtime h hk rfl
    simp only [SimCx.runtime, hk, SimCx.dropSims] at h
    obtain ⟨-, h⟩ := SimCx.borrow_bind.mp h
    rw [hlast] at h
    cases h
    intro i hi
    obtain rfl : s.sim.simulators.length - 1 = i := Option.some.inj (hslot.symm.trans hi)
    simp
  · cases hd

theorem Next.dropped (h : Next f s l s') (hL : s.Linked b)
    (hd : s'.net.dropped = true) : s'.sim.Without netTy := by
  have keep : s'.net.dropped = s.net.dropped → s'.sim.Without netTy := fun he =>
    (hL.dropped (he ▸ hd)).steps hL.reach.base h.sim_steps
  cases h with
  | dropNet order sim hdn h => exact dropsNet_without hL.reach hdn h
  | openSocket port ty owner r net hu hn ho h =>
    unfold Net.openSocket at h
    split at h
    · cases h
    · simp only [Except.ok.injEq, Prod.mk.injEq] at h
      obtain ⟨rfl, rfl⟩ := h
      exact keep rfl
  | dropSocket r sock net hu hn hs h =>
    unfold Net.dropSocket at h
    split_ifs at h
    cases h
    exact keep (by simp)
  | pollReceive r clone key net hu hk h0 h =>
      exact keep (pollReceive_frame (·.dropped) (fun _ _ => rfl) (fun _ _ _ => rfl) (fun _ _ => rfl)
        (fun _ => Net.collect_dropped _ _) h)
  | dropReceive r hu h0 => exact keep (by simp [Net.dropReceive])
  | drain r key hs hk hc hn =>
    refine keep ?_
    unfold Net.drain
    split <;> simp
  | firstPoll loc v caller rest t d sim₁ sim₂ _ hk hr hp hd h1 h2 h =>
    rcases h with h | h
    · exact keep (by rw [h.net])
    · exact keep (by rw [h.net]; exact deliver_dropped _ _ _ _)
  | nextPoll l loc v caller rest t d sim₂ _ hk hr hp hd h2 h =>
    rcases h with h | h
    · exact keep (by rw [h.net])
    · exact keep (by rw [h.net]; exact deliver_dropped _ _ _ _)
  | discard l v id post caller rest ph _ hk hp hph h
  | discardSleep l loc v id post caller rest sim _ hk hp hst h =>
    refine keep ?_
    rw [h]
    dsimp only
    split
    · rfl
    · simp [Net.abortDelivery]
  | _ => exact keep rfl

theorem Linked.step (hL : s.Linked b) (h : step f s l = .ok s') : s'.Linked b := by
  have hn := step_next h
  refine ⟨hL.reach.trans hn.sim_steps, hn.known hL, hn.inFlight hL.inFlight, hn.dropped hL, ?_, ?_⟩
  · rcases hn.acts hL with ha | ⟨rc, -, ha⟩
    · exact ha.registry hL.registry
    · rw [ha]; exact hL.registry.clonePacket rc
  · rcases hn.acts hL with ha | ⟨rc, -, ha⟩
    · exact ha.typed hL.registry hL.typed
    · rw [ha]; exact hL.typed.clonePacket rc

theorem linked_install (b : SimBuilder) : (install b : NetCx V Q P).Linked b where
  reach := Machine.Steps.refl _
  known id h := absurd rfl h
  inFlight id := by simp [install, Net.new]
  dropped h := by cases h
  registry := Net.registry_new
  typed := Net.typed_new

theorem Reachable.linked (hr : Reachable f b s) : s.Linked b :=
  Machine.Steps.inv (fun _ _ _ hL h => hL.step h) hr (linked_install b)

end NetCx

end Refault
