import Refault.NetStep
import Refault.StoppedNodes

/-!
# Refault.Sockets — the socket registry

The registry itself is an invariant of `Net` alone (`Net.Registry`).  What a stop of a node does to it goes
through the tasks: a socket that is owned by a future is dropped before the destructor of that future returns,
so as long as it is live there is that future (`Owned`), and the stop leaves none of its node.
-/

namespace Refault

namespace SimCx

variable {V Q : Type} [KeyedQueue Q Loc Instant] {b : SimBuilder} {s s' : SimCx V Q} {l : Label V} {id : Id}

/-- There is a future of `id`, or its destructor runs. -/
def HasFuture (s : SimCx V Q) (id : Id) : Prop :=
  ((s.ex.state id).live = true ∨ s.ex.polling = some id) ∨ ∃ post c, .discard id post c ∈ s.stack

/-- A frame below the top stays. -/
theorem Next.mem_rest (h : Next s l s') {f g : Frame V} {rest : List (Frame V)} (hk : s.stack = f :: rest)
    (hg : g ∈ rest) : g ∈ s'.stack := by
  rcases h.top hk with ⟨h1, -⟩ | ⟨gs, f', h1, -, -⟩
  · rw [h1]; exact hg
  · rw [h1]; simp [hg]

/-- The future stays until its destructor returns. -/
theorem HasFuture.step (hF : s.HasFuture id) (hr : Reachable b s) (h : s.step l = .ok s')
    (hd : ∀ r post c rest, l = .user (.done r) → s.stack ≠ .discard id post c :: rest) : s'.HasFuture id := by
  have hn := step_next hr.base h
  rcases hF with hF | ⟨post, c, hm⟩
  · by_contra hno
    have hend : s.ex.state id ≠ .taskEnd := by
      rcases hF with hl | hp
      · intro h0; rw [h0] at hl; cases hl
      · intro h0
        obtain ⟨t, ht, rfl⟩ := Option.map_eq_some_iff.mp hp
        rcases (hr.base.exec.running t ht).2 with h1 | h1 | h1 <;> rw [h0] at h1 <;> cases h1
    have ho : s.ex.Open id := Or.inr hF
    have ho' : ¬ s'.ex.Open id := by
      rintro (h0 | h0)
      · exact hr.base.known_steps (.single h) hend h0
      · exact hno (Or.inl h0)
    obtain ⟨r, b', h1, -⟩ := ((hr.tail h).accounts id).closed ho'
    obtain ⟨post, c, rest, hk⟩ := hn.drop_frame (by
      rw [h1, ((hr.accounts id).opened ho).1]
      exact List.cons_ne_nil _ _)
    exact hno (Or.inr ⟨post, c, by rw [hk]; exact List.mem_cons_self⟩)
  · obtain ⟨f, rest, hk⟩ := hr.base.stack_ne
    rw [hk] at hm
    rcases List.mem_cons.mp hm with rfl | hm
    · refine Or.inr ⟨post, c, ?_⟩
      cases l with
      | run order => simp only [SimCx.step, runtime, hk] at h; cases h
      | user op =>
        have hop : ∀ r, op ≠ .done r := fun r h0 => hd r post c rest (by rw [h0]) hk
        rcases hn.call rfl hop with ⟨h1, -⟩ | ⟨g, h1, -⟩
        · rw [h1, hk]; exact List.mem_cons_self
        · rw [h1, hk]; simp
    · exact Or.inr ⟨post, c, hn.mem_rest hk hm⟩

/-- No code of a task of `n` runs: none is polled, and no destructor of one runs. -/
def Outside (s : SimCx V Q) (n : NodeId) : Prop :=
  ∀ id, s.ex.node id = n → s.ex.polling ≠ some id ∧ ∀ post c, .discard id post c ∉ s.stack

/-- A stop runs on top of what called it. -/
theorem Stops.discard {n : NodeId} (hs : s.Stops l n) (h : s.step l = .ok s') {f : Frame V} {base : List (Frame V)}
    (hk : s'.stack = f :: base) {post : Bool} {c : NodeId} (hm : .discard id post c ∈ base) :
    .discard id post c ∈ s.stack := by
  have key : ∀ {s : SimCx V Q} {isFinal : Bool} {order : List Id}, s.ex.runLevel n = some .running →
      s.stopNode n isFinal order = .ok s' → .discard id post c ∈ s.stack := by
    intro s isFinal order hrun h
    obtain ⟨-, nd, hnd, ⟨-, -, -, rfl⟩ | ⟨hne, -⟩⟩ := stopNode_ok h
    · cases hk
      exact hm
    · simp [Exec.runLevel, hnd, hne] at hrun
  cases hs with
  | user n order hrun =>
    simp only [step] at h
    split at h
    · cases h
    · split_ifs at h
      exact key hrun h
  | final n nodes rest order hk' hrun =>
    simp only [step, runtime, hk'] at h
    have := key (s := { s with stack := .stopAll nodes :: rest }) hrun h
    simp only [List.mem_cons, reduceCtorEq, false_or] at this
    rw [hk']
    exact List.mem_cons_of_mem _ this

/-- When a stop from outside has returned, the tasks that it found have no future. -/
theorem Stops.no_future {n : NodeId} (hs : s.Stops l n) (hr : Reachable b s) (ho : s.Outside n)
    (h : s.step l = .ok s')
    {f : Frame V} {m : SimCx V Q} (hk : s'.stack = f :: m.stack) (hm : Machine.Steps step s' m)
    (hend : s.ex.state id ≠ .taskEnd) (hn : s.ex.node id = n) : ¬ m.HasFuture id := by
  have hF := (hs.found hr.base h hk hend hn).run (step_base hr.base h) hm
  obtain ⟨hpoll, hdiscard⟩ := ho id hn
  rintro ((hl | hp) | ⟨post, c, hd⟩)
  · rcases hF.pending with ⟨top, ids, c, hkm, -⟩ | hdead
    · exact absurd (congrArg List.length hkm) (by simp; omega)
    · rw [hdead.2] at hl
      cases hl
  · exact hpoll (hF.polling hp)
  · exact hdiscard post c (hs.discard h hk hd)

end SimCx

namespace NetCx

variable {V Q P : Type} [KeyedQueue Q Loc Instant] {f : SendFunction} {b : SimBuilder} {s s' : NetCx V Q P}
  {l : NetLabel V P}

/-- The owner of a live socket has its future. -/
def Owned (s : NetCx V Q P) : Prop := ∀ r id, s.net.sockets r ≠ none → s.owner r = some id → s.sim.HasFuture id

theorem hasFuture_of_canOwn (hB : s.sim.Base) {id : Id} (h : s.canOwn id = true) : s.sim.HasFuture id := by
  unfold canOwn at h
  rw [Bool.or_eq_true, Option.any_eq_true, Option.any_eq_true] at h
  rcases h with ⟨t, ht, hid⟩ | ⟨entry, he, hs⟩
  · refine Or.inl (Or.inr ?_)
    rw [Exec.polling, ht]
    simpa using hid
  · refine Or.inl (Or.inl ?_)
    rw [hB.exec.tasks_eq id] at he
    unfold Exec.expected at he
    cases hst : s.sim.ex.state id <;> rw [hst] at he <;> cases he <;> first | rfl | cases hs

/-- Sockets that are live stay so or are dropped; a new one is owned by the future it is opened for. -/
theorem Next.sockets (h : Next f s l s') (r : InboxRc) :
    s'.net.sockets r = s.net.sockets r ∨ s'.net.sockets r = none ∨
    s'.sim = s.sim ∧ (s'.owner r).all s.canOwn = true := by
  have deliver : ∀ {n : Net P} {id : Id} {now : Instant}
      {d : Delivery}, (n.deliver id now d).sockets r = n.sockets r := by
    intro n id now d
    unfold Net.deliver
    dsimp only
    split
    · simp
    · split_ifs <;> simp
  cases h with
  | openSocket port ty owner r' net hu hn ho h =>
    unfold Net.openSocket at h
    split at h
    · cases h
    · simp only [Except.ok.injEq, Prod.mk.injEq] at h
      obtain ⟨rfl, rfl⟩ := h
      by_cases hr : r = s.net.inboxCount
      · subst hr
        exact Or.inr (Or.inr ⟨rfl, by simpa using ho⟩)
      · exact Or.inl (by simp [hr])
  | dropSocket r' sock net hu hn hs h =>
    unfold Net.dropSocket at h
    split_ifs at h
    cases h
    by_cases hr : r = r'
    · subst hr; exact Or.inr (Or.inl (by simp))
    · exact Or.inl (by simp [hr])
  | pollReceive r' clone key net hu hk h0 h =>
    exact Or.inl (pollReceive_frame (·.sockets r) (fun _ _ => rfl) (fun _ _ _ => rfl) (fun _ _ => rfl)
      (fun n => congrFun (Net.collect_sockets _ r') r) h)
  | dropReceive r' hu h0 => exact Or.inl (by simp [Net.dropReceive])
  | drain r' key hs hk hc hn =>
    refine Or.inl ?_
    unfold Net.drain
    split <;> simp
  | firstPoll loc v caller rest t d sim₁ sim₂ _ hk hr hp hd h1 h2 h =>
    rcases h with h | h
    · exact Or.inl (by rw [h.net])
    · exact Or.inl (by rw [h.net]; exact deliver)
  | nextPoll l loc v caller rest t d sim₂ _ hk hr hp hd h2 h =>
    rcases h with h | h
    · exact Or.inl (by rw [h.net])
    · exact Or.inl (by rw [h.net]; exact deliver)
  | discard l v id post caller rest ph _ hk hp hph h
  | discardSleep l loc v id post caller rest sim _ hk hp hst h =>
    refine Or.inl ?_
    rw [h]
    dsimp only
    split
    · rfl
    · simp [Net.abortDelivery]
  | _ => exact Or.inl rfl

/-- The owner of a socket changes by `open` and by a move only. -/
theorem Next.owner (h : Next f s l s') (r : InboxRc) : s'.owner r = s.owner r ∨
    s'.sim = s.sim ∧ (s'.owner r).all s.canOwn = true := by
  cases h with
  | openSocket port ty owner r' net hu hn ho h =>
    by_cases hr : r = r'
    · subst hr; exact Or.inr ⟨rfl, by simpa using ho⟩
    · exact Or.inl (by simp [hr])
  | moveSocket r' owner hu hs ho =>
    by_cases hr : r = r'
    · subst hr; exact Or.inr ⟨rfl, by simpa using ho⟩
    · exact Or.inl (by simp [hr])
  | firstPoll loc v caller rest t d sim₁ sim₂ _ hk hr hp hd h1 h2 h =>
    rcases h with h | h <;> exact Or.inl (by rw [h.eq])
  | nextPoll l loc v caller rest t d sim₂ _ hk hr hp hd h2 h => rcases h with h | h <;> exact Or.inl (by rw [h.eq])
  | discard l v id post caller rest ph _ hk hp hph h
  | discardSleep l loc v id post caller rest sim _ hk hp hst h =>
    exact Or.inl (by rw [h])
  | _ => exact Or.inl rfl

/-! ## Owners -/

/-- What the code of `enqueue`'s future does ends no destructor. -/
theorem hasFuture_poll {sim : SimCx V Q} {id i : Id} {d : Delivery} {loc : Loc} {s₀ : NetCx V Q P}
    {caller : NodeId}
    {rest : List (Frame V)} (hr : SimCx.Reachable b sim) (hk : sim.stack = .poll caller :: rest)
    (hF : sim.HasFuture id) (h : Waits s₀ sim i loc s' ∨ Delivers s₀ sim i d loc s') : s'.sim.HasFuture id := by
  rcases h with h | h
  · exact hF.step hr h.step fun r post c rest' _ hk' => by rw [hk] at hk'; cases hk'
  · obtain ⟨sim₁, h1, h2⟩ := h.steps
    have h1' := hF.step hr h1 fun r post c rest' h0 => by cases h0
    exact h1'.step (hr.tail h1) h2 fun r post c rest' h0 => by cases h0

omit [KeyedQueue Q Loc Instant] in
theorem ownsNothing_spec (hR : s.net.Registry) {id : Id} (h : s.ownsNothing id = true) {r : InboxRc}
    (ho : s.owner r = some id) : s.net.sockets r = none := by
  unfold ownsNothing at h
  by_cases hr : s.net.inboxCount ≤ r
  · exact (hR.fresh r hr).1
  · have := List.all_eq_true.mp h r (List.mem_range.mpr (by omega))
    simpa [ho] using this

/-- The future of an owner stays. -/
theorem Next.hasFuture (h : Next f s l s') (hL : s.Linked b) {r : InboxRc} {id : Id} (hs : s.net.sockets r ≠ none)
    (ho : s.owner r = some id) (hF : s.sim.HasFuture id) : s'.sim.HasFuture id := by
  have spawn : ∀ {i : Id} {sim : SimCx V Q}, s.userCode = true → s.sim.spawnTaskOnNode initNode = .ok (i, sim) →
      sim.HasFuture id := fun hu h =>
    hF.step hL.reach (SimCx.step_spawn (inUser_of_userCode hu) h) fun r post c rest h0 => by cases h0
  cases h with
  | sim op sim hu hp h =>
    refine hF.step hL.reach h fun v post c rest hl hk => ?_
    cases hl
    simp only [permits, hk] at hp
    exact hs (ownsNothing_spec hL.registry hp ho)
  | run order sim hd h => exact hF.step hL.reach h fun r post c rest h0 => by cases h0
  | dropNet order sim hd h => exact hF.step hL.reach h fun r post c rest h0 => by cases h0
  | sendPerfect op src dst packet level latency t i sim hu hf ht h => exact spawn hu h
  | enqueuePacket t rc w i sim hu hw h0 h => exact spawn hu h
  | enqueueError t dst ty kind i sim hu h => exact spawn hu h
  | firstPoll loc v caller rest t d sim₁ sim₂ _ hk hr hp hd h1 h2 h =>
    have hF1 := hF.step hL.reach h1 fun r post c rest h0 => by cases h0
    have hF2 := hF1.step (hL.reach.tail h1) h2 fun r post c rest h0 => by cases h0
    obtain ⟨-, rfl⟩ := SimCx.step_newSleep h1
    obtain ⟨sl, ts, -, -, rfl⟩ := SimCx.step_pollSleep h2
    exact hasFuture_poll ((hL.reach.tail h1).tail h2) hk hF2 h
  | nextPoll l loc v caller rest t d sim₂ _ hk hr hp hd h2 h =>
    have hF2 := hF.step hL.reach h2 fun r post c rest h0 => by cases h0
    obtain ⟨sl, ts, -, -, rfl⟩ := SimCx.step_pollSleep h2
    exact hasFuture_poll (hL.reach.tail h2) hk hF2 h
  | returns l v caller rest t sim hk hr hp h =>
    exact hF.step hL.reach h fun r post c rest' _ hk' => by rw [hk] at hk'; cases hk'
  | discard l v i post caller rest ph _ hk hp hph h => rw [h]; exact hF
  | discardSleep l loc v i post caller rest sim _ hk hp h he =>
    rw [he]
    exact hF.step hL.reach h fun r post c rest h0 => by cases h0
  | _ => exact hF

/-- **Ownership**: the owner of a live socket has its future. -/
theorem Owned.step (hO : s.Owned) (hL : s.Linked b) (h : step f s l = .ok s') : s'.Owned := by
  have hn := step_next h
  intro r id hs ho
  have hnew : s'.sim = s.sim → (s'.owner r).all s.canOwn = true → s'.sim.HasFuture id := by
    intro h1 h2
    rw [h1]
    exact hasFuture_of_canOwn hL.reach.base (by simpa [ho] using h2)
  rcases hn.owner r with h0 | ⟨h0, hc⟩
  · rcases hn.sockets r with h1 | h1 | ⟨h1, hc⟩
    · rw [h1] at hs
      rw [h0] at ho
      exact hn.hasFuture hL hs ho (hO r id hs ho)
    · exact absurd h1 hs
    · exact hnew h1 hc
  · exact hnew h0 hc

theorem Reachable.owned (hr : Reachable f b s) : s.Owned :=
  Machine.Steps.inv_of (J := (Linked b ·)) (fun _ _ _ hL h => hL.step h) (fun _ _ _ hL hO h => hO.step hL h) hr
    (linked_install b) fun _ _ h => absurd rfl h

/-! ## The registry -/

theorem steps_sim {m : NetCx V Q P} (h : Machine.Steps (step f) s m) : Machine.Steps SimCx.step s.sim m.sim :=
  h.induct (P := fun m => Machine.Steps SimCx.step s.sim m.sim) (.refl _) fun _ _ _ _ hm hst =>
    hm.trans (step_next hst).sim_steps

theorem step_simStep {l : Label V} (h : s.step f (.sim l) = .ok s') : s.sim.step l = .ok s'.sim := by
  cases step_next h with
  | sim op sim hu hp hst => exact hst
  | run order sim hd hst => exact hst
  | dropNet order sim hd hst => exact hst

theorem step_openSocket {port : Id} {ty : TypeId} {owner : Option Id}
    (h : s.step f (.user (.openSocket port ty owner)) = .ok s') :
    (∃ e, s.net.openSocket (⟨s.sim.currentNode, port⟩, ty) = .error e) ∧ s' = s ∨
    ∃ r net, s.net.openSocket (⟨s.sim.currentNode, port⟩, ty) = .ok (r, net) ∧
      s' = { s with net := net, owner := Function.update s.owner r owner } := by
  simp only [step, userOp] at h
  split_ifs at h
  obtain ⟨-, h⟩ := withNet_bind.mp h
  split at h
  · rename_i e he
    cases h
    exact Or.inl ⟨⟨e, he⟩, rfl⟩
  · rename_i r net he
    cases h
    exact Or.inr ⟨r, net, he, rfl⟩

/-- A socket with that key is live. -/
def Live (n : Net P) (key : Key) : Prop := ∃ r sock, n.sockets r = some sock ∧ sock.key = key

omit [KeyedQueue Q Loc Instant] in
theorem live_iff (hR : s.net.Registry) (hd : s.net.dropped = false) (key : Key) :
    Live s.net key ↔ s.net.inboxes key ≠ none := by
  constructor
  · rintro ⟨r, sock, hs, hk⟩
    rw [(hR.registered hd key r).mpr ⟨sock, hs, hk⟩]
    exact Option.some_ne_none r
  · intro h
    obtain ⟨r, hr⟩ := Option.ne_none_iff_exists'.mp h
    obtain ⟨sock, hs, hk⟩ := (hR.registered hd key r).mp hr
    exact ⟨r, sock, hs, hk⟩

/-- **The socket registry.**  In every reachable state the entries of `Inboxes` are those of the live sockets,
one for each key.  `open` fails if there is a live socket with its key, and then changes nothing; otherwise it
registers a new one. Dropping a socket removes its own entry, and its assertion holds.  When a stop of a node
from outside has returned, no socket is live that a task of the node still owns, so a key that only these held
can be opened again. -/
theorem socket_registry (hr : Reachable f b s) (hd : s.net.dropped = false) :
    (∀ key r, s.net.inboxes key = some r ↔ ∃ sock, s.net.sockets r = some sock ∧ sock.key = key) ∧
    (∀ r r' sock sock', s.net.sockets r = some sock → s.net.sockets r' = some sock' → sock.key = sock'.key →
      r = r') ∧
    (∀ key e, s.net.openSocket key = .error e ↔ Live s.net key ∧ e = ⟨key.1, key.2⟩) ∧
    (∀ port ty owner s', s.step f (.user (.openSocket port ty owner)) = .ok s' →
      (Live s.net (⟨s.sim.currentNode, port⟩, ty) → s' = s) ∧
      (¬ Live s.net (⟨s.sim.currentNode, port⟩, ty) → ∃ r, s.net.sockets r = none ∧
        s'.net.inboxes = Function.update s.net.inboxes (⟨s.sim.currentNode, port⟩, ty) (some r) ∧
        s'.net.sockets = Function.update s.net.sockets r (some ⟨⟨s.sim.currentNode, port⟩, ty⟩))) ∧
    (∀ r sock, s.net.sockets r = some sock → s.userCode = true → s.NetFree →
      ∃ s', s.step f (.user (.dropSocket r)) = .ok s' ∧
        s'.net.inboxes = Function.update s.net.inboxes sock.key none ∧
        s'.net.sockets = Function.update s.net.sockets r none) ∧
    ∀ l n s' g m, s.sim.Stops l n → s.sim.Outside n → s.step f (.sim l) = .ok s' →
    s'.sim.stack = g :: m.sim.stack →
      Machine.Steps (step f) s' m →
      (∀ r id, m.owner r = some id → s.sim.ex.state id ≠ .taskEnd → s.sim.ex.node id = n →
        m.net.sockets r = none) ∧
      ∀ key, (∀ r sock, m.net.sockets r = some sock → sock.key = key →
          ∃ id, m.owner r = some id ∧ s.sim.ex.state id ≠ .taskEnd ∧ s.sim.ex.node id = n) →
        ¬ Live m.net key ∧ ∃ r net, m.net.openSocket key = .ok (r, net) := by
  have hL := hr.linked
  have hR := hL.registry
  refine ⟨hR.registered hd, fun r r' sock sock' => hR.unique hd, fun key e => ?_, fun port ty owner s' h => ?_,
    fun r sock hs hu hn => ?_, fun l n s' g m hs ho h hk hm => ?_⟩
  · rw [live_iff hR hd]
    unfold Net.openSocket
    cases s.net.inboxes key <;> simp [eq_comm]
  · rw [live_iff hR hd]
    rcases step_openSocket h with ⟨⟨e, he⟩, rfl⟩ | ⟨r, net, he, rfl⟩
    · refine ⟨fun _ => rfl, fun h0 => ?_⟩
      rw [not_not] at h0
      simp only [Net.openSocket, h0] at he
      cases he
    · unfold Net.openSocket at he
      split at he
      · cases he
      · rename_i hnone
        simp only [Except.ok.injEq, Prod.mk.injEq] at he
        obtain ⟨rfl, rfl⟩ := he
        exact ⟨fun h0 => absurd hnone h0, fun _ => ⟨_, (hR.fresh _ le_rfl).1, rfl, rfl⟩⟩
  · have hin : s.net.inboxes sock.key = some r := (hR.registered hd _ _).mpr ⟨sock, hs, rfl⟩
    obtain ⟨net, hdrop, h1, h2⟩ : ∃ net, s.net.dropSocket r sock = .ok net ∧
        net.inboxes = Function.update s.net.inboxes sock.key none ∧
            net.sockets = Function.update s.net.sockets r none :=
      ⟨_, if_pos hin, Net.collect_inboxes _ _, Net.collect_sockets _ _⟩
    refine ⟨{ s with net := net }, ?_, h1, h2⟩
    simp only [step, hu, if_true, userOp, dropSocket, hs]
    exact withNet_bind.mpr ⟨hn, by rw [hdrop]; rfl⟩
  · have hrm : Reachable f b m := (hr.tail h).trans hm
    have hown : ∀ r id, m.owner r = some id → s.sim.ex.state id ≠ .taskEnd → s.sim.ex.node id = n →
        m.net.sockets r = none := by
      intro r id hid hend hnode
      by_contra hlive
      exact hs.no_future hL.reach ho (step_simStep h) hk (steps_sim hm) hend hnode (hrm.owned r id hlive hid)
    refine ⟨hown, fun key hkey => ?_⟩
    have hfree : ¬ Live m.net key := by
      rintro ⟨r, sock, hs', hk'⟩
      obtain ⟨id, hid, hend, hnode⟩ := hkey r sock hs' hk'
      rw [hown r id hid hend hnode] at hs'
      cases hs'
    refine ⟨hfree, ?_⟩
    have hnone : m.net.inboxes key = none := by
      cases hdm : m.net.dropped with
      | true => exact hrm.linked.registry.gone hdm key
      | false => rwa [live_iff hrm.linked.registry hdm, not_not] at hfree
    simp [Net.openSocket, hnone]

/-- The root task creates a node and spawns a task there, which opens a socket; then the root runs again. -/
def openRun : List (NetLabel ℕ ℕ) :=
  [.sim (.user (.addSimulator netTy)), .sim (.user (.done none)), .sim (.run []), .sim (.user .createNode),
    .sim (.run []), .sim (.user (.done none)), .sim (.run []), .sim (.user (.spawn 1)),
    .sim (.user (.wake 1)), .sim (.user (.done none)), .sim (.run []), .user (.openSocket 7 3 (some 2)),
    .sim (.user (.done none)), .sim (.run [])]

/-- The stop of the node, after its first step. -/
def stopRun : List (NetLabel ℕ ℕ) :=
  [.sim (.run []), .user (.dropSocket 0), .sim (.user (.done none)), .sim (.run []), .sim (.run []),
    .sim (.user (.done none)), .sim (.run [])]

theorem socket_registry_stop : ∃ s s' m : NetCx ℕ (SwapArray Loc Instant) ℕ,
    Machine.run (step .custom) (install SimCx.epoch) openRun = .ok s ∧
    s.step .custom (.sim (.user (.stop 1 [2]))) = .ok s' ∧
      Machine.run (step .custom) s' stopRun = .ok m ∧ Live s.net (⟨1, 7⟩, 3) ∧
      ∃ r net, m.net.openSocket (⟨1, 7⟩, 3) = .ok (r, net) := by
  obtain ⟨s, hs, hq⟩ : ∃ s : NetCx ℕ (SwapArray Loc Instant) ℕ,
      Machine.run (step .custom) (install SimCx.epoch) openRun = .ok s ∧
      ((s.sim.stack, s.sim.ex.runLevel 1, s.sim.ex.polling, s.sim.ex.node 1, s.sim.ex.state 2, s.sim.ex.node 2),
        s.net.dropped, s.net.inboxes (⟨1, 7⟩, 3),
          (s.step .custom (.sim (.user (.stop 1 [2])))).map (·.sim.stack)) =
      (([.poll 0, .loop], some .running, some 1, 0, .waiting, 1), false, some 0,
          .ok [.stopNode [2] 0, .poll 0, .loop]) :=
    Machine.exists_of_run rfl
  obtain ⟨m, hm, hq'⟩ : ∃ m : NetCx ℕ (SwapArray Loc Instant) ℕ,
      Machine.run (step .custom) (install SimCx.epoch)
        (openRun ++ [.sim (.user (.stop 1 [2]))] ++ stopRun) = .ok m ∧
      (m.sim.stack, m.net.inboxCount, m.owner 0) = ([.poll 0, .loop], 1, some 2) := Machine.exists_of_run rfl
  obtain ⟨s', h1, h2⟩ := Machine.run_append.mp hm
  obtain ⟨s₀, h0, h3⟩ := Machine.run_append.mp h1
  obtain rfl : s₀ = s := Except.ok.inj (h0.symm.trans hs)
  have hst := Machine.run_single.mp h3
  simp only [Prod.mk.injEq, hst] at hq hq'
  obtain ⟨⟨hk₀, hrun, hpoll, hn1, hstate, hn2⟩, hd, hin, hk⟩ := hq
  obtain ⟨hkm, hcount, howner⟩ := hq'
  replace hk : s'.sim.stack = .stopNode [2] 0 :: m.sim.stack := (Except.ok.inj hk).trans (by rw [hkm])
  have hout : s₀.sim.Outside 1 := by
    refine fun id hid => ⟨fun h => ?_, fun post c h => ?_⟩
    · obtain rfl : 1 = id := Option.some.inj (hpoll.symm.trans h)
      rw [hn1] at hid
      cases hid
    · rw [hk₀] at h
      simp at h
  have hreg := socket_registry ⟨_, hs⟩ hd
  have hstop := hreg.2.2.2.2.2 _ 1 s' _ m (.user 1 [2] hrun) hout hst hk ⟨_, h2⟩
  refine ⟨s₀, s', m, hs, hst, h2, ⟨0, (hreg.1 _ _).mp hin⟩, (hstop.2 (⟨1, 7⟩, 3) fun r sock hs' _ => ?_).2⟩
  have hR := (Reachable.linked ⟨_, hm⟩ : m.Linked SimCx.epoch).registry
  obtain rfl : r = 0 := by
    refine Nat.lt_one_iff.mp (Nat.lt_of_not_le fun h => ?_)
    rw [(hR.fresh r (hcount ▸ h)).1] at hs'
    cases hs'
  exact ⟨2, howner, by rw [hstate]; decide, hn2⟩

end NetCx

end Refault
