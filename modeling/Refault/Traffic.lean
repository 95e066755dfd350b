import Refault.Arrivals
import Refault.Waiting

/-!
# Refault.Traffic — traffic between other nodes while a node is stopped or started

The futures that deliver packets are tasks of `NodeId::INIT`, whatever the nodes of the packets.  So a stop of
another node does not touch them: `NodeId::INIT` stays up (`up_run`), and what is enqueued is on time.  Inboxes
are changed by user code, by deliveries and by `Net::start_node`; a stop or a start of `n` runs this callback for
no other node (`Calling`).  A send fails for a stopped node only if that is `NodeId::INIT` (`emit_fails`), and a
stop of that node takes the packets of all others with it (`stop_of_init_disturbs_traffic`).
-/

namespace Refault

namespace SimCx

variable {V Q : Type} [KeyedQueue Q Loc Instant] {b : SimBuilder} {s s' : SimCx V Q} {l : Label V}

/-- `stop_simulation` stops the nodes when the simulation is stopped. -/
theorem Reachable.stopAll_stopped (hr : Reachable b s) {nodes : List NodeId} (hm : .stopAll nodes ∈ s.stack) :
    s.ex.finalStopped = true := by
  refine hr.invariant (I := fun s => ∀ nodes, .stopAll nodes ∈ s.stack → s.ex.finalStopped = true)
    (fun nodes h => by simp [install] at h) (fun s l s' hB hI h nodes hm => ?_) nodes hm
  rcases h.mem_stack hm with h0 | h0
  · exact h.finalStopped hB (hI nodes h0)
  · cases h0 with
    | stopAll _ hf =>
      rcases hf with hf | ⟨nodes', h0⟩
      · exact hf
      · exact h.finalStopped hB (hI nodes' h0)

/-- `NodeId::INIT` stays up unless user code stops it or the simulation is stopped. -/
theorem Up.step (hup : s.Up) (hr : Reachable b s) (h : s.step l = .ok s')
    (hl : ∀ order, l ≠ .user (.stop initNode order)) (hf : s'.ex.finalStopped = false) : s'.Up := by
  refine ⟨?_, hf⟩
  rcases (step_next hr.base h).runLevel hup.1 with h0 | ⟨hs, -⟩
  · exact h0
  · cases hs with
    | user n order hrun => exact absurd rfl (hl order)
    | final n nodes rest order hk hrun =>
      have hm : .stopAll (initNode :: nodes) ∈ s.stack := by
        rw [hk]
        exact List.mem_cons_self
      have h0 := hr.stopAll_stopped hm
      rw [hup.2] at h0
      cases h0

/-! ## What a stop or a start does above the frames it was called from -/

omit [KeyedQueue Q Loc Instant] in
theorem rounds_callee {cur c n : NodeId} {top base : List (Frame V)} {g : Frame V} {p : Phase}
    (hn : nodeUnder cur top = n) (hp : g.phase = some p) (hc : g.below n = c) :
    ∃ r new, Refault.rounds cur (top ++ g :: base) = new ++ r :: Refault.rounds c base := by
  induction top generalizing cur with
  | nil =>
    rw [nodeUnder_nil] at hn
    subst hn hc
    exact ⟨⟨cur, p, taken base⟩, [], by simp [hp]⟩
  | cons f top ih =>
    obtain ⟨r, new, h⟩ := ih hn
    exact ⟨r, _ ++ new, by rw [List.cons_append, rounds_cons, h, List.append_assoc]⟩

omit [KeyedQueue Q Loc Instant] in
theorem phase_of_cont {f g : Frame V} (h : f.Cont g) (hf : f.phase.isSome) : g.phase.isSome := by
  cases h <;> exact hf

/-- The round does not start or create the node `k`. -/
def Passes (k : NodeId) (r : Round) : Prop := r.node = k → ∀ cb idx, r.phase = .calling cb idx → cb = .stop

/-- A stop or a start of `n` that was called from `base`, on node `c`, is running, and above `base` no node
`k` is being started or created. -/
structure Calling (base : List (Frame V)) (c n k : NodeId) (s : SimCx V Q) : Prop where
  callee : ∃ top g, s.Callee base n top g ∧ g.phase.isSome ∧ g.below n = c
  rounds : ∃ new, s.rounds = new ++ Refault.rounds c base ∧ ∀ r ∈ new, Passes k r

variable {base : List (Frame V)} {c n k : NodeId}

omit [KeyedQueue Q Loc Instant] in
theorem Calling.first (hC : s.Calling base c n k) :
    ∃ r new, s.rounds = r :: (new ++ Refault.rounds c base) ∧ ∀ r' ∈ r :: new, Passes k r' := by
  obtain ⟨top, g, ⟨hk, hn⟩, hp, hc⟩ := hC.callee
  obtain ⟨p, hp⟩ := Option.isSome_iff_exists.mp hp
  obtain ⟨r, new', h'⟩ : ∃ r new', Refault.rounds s.currentNode (top ++ g :: base) =
      new' ++ r :: Refault.rounds c base := rounds_callee hn hp hc
  obtain ⟨new, h, hnew⟩ := hC.rounds
  cases new with
  | nil =>
    rw [SimCx.rounds, hk, h'] at h
    have hlen := congrArg List.length h
    simp at hlen
    omega
  | cons r new => exact ⟨r, new, h, hnew⟩

theorem Calling.step (hC : s.Calling base c n k) (hB : s.Base) (h : Next s l s') (hl : l ≠ .user (.start k))
    (hk : k < s.ex.nodes.length) : s'.stack = base ∨ s'.Calling base c n k := by
  obtain ⟨top, g, hcal, hp, hc⟩ := hC.callee
  rcases h.callee hcal with ⟨h0, -⟩ | ⟨top', g', hcal', hcont⟩
  · exact Or.inl h0
  · refine Or.inr ⟨⟨top', g', hcal', phase_of_cont hcont hp, (hcont.below n).trans hc⟩, ?_⟩
    obtain ⟨r, new, hr, hnew⟩ := hC.first
    obtain ⟨hfirst, hnew'⟩ := List.forall_mem_cons.mp hnew
    -- a step puts one round on top, or goes on with the first
    have push : ∀ {r' : Round}, s'.rounds = r' :: s.rounds → Passes k r' →
        ∃ new, s'.rounds = new ++ Refault.rounds c base ∧ ∀ r ∈ new, Passes k r :=
      fun {r'} h1 h2 => ⟨r' :: r :: new, by rw [h1, hr]; rfl, List.forall_mem_cons.mpr ⟨h2, hnew⟩⟩
    have next : ∀ {r₀ r' : Round} {o : List Round}, s.rounds = r₀ :: o → s'.rounds = r' :: o →
        (r₀ = r → Passes k r') → ∃ new, s'.rounds = new ++ Refault.rounds c base ∧ ∀ r ∈ new, Passes k r := by
      intro r₀ r' o h1 h2 h3
      obtain ⟨h4, rfl⟩ := List.cons.inj (h1.symm.trans hr)
      exact ⟨r' :: new, h2, List.forall_mem_cons.mpr ⟨h3 h4, hnew'⟩⟩
    cases h.turn hB with
    | calm _ _ h0 => exact ⟨r :: new, h0.trans hr, hnew⟩
    | stop _ m level hrun hlv he hu h0 => exact push h0 fun _ cb idx h => by cases h
    | start m hrun he hu h0 => exact push h0 fun hm => absurd (congrArg _ (congrArg _ hm)) hl
    | create _ hf he hu h0 => exact push h0 fun hm => absurd (hm ▸ hk) (lt_irrefl _)
    | sims _ m o he h1 h2 => exact next h1 h2 fun _ _ cb idx h => by cases h; rfl
    | call _ m cb i idx sim o hs he h1 h2 =>
      refine next h1 h2 fun h0 hm cb' idx' h => ?_
      cases h
      exact hfirst (h0 ▸ hm) cb (i :: idx) (h0 ▸ rfl)
    | finish _ m cb o he h1 h2 =>
      obtain ⟨-, rfl⟩ := List.cons.inj (h1.symm.trans hr)
      exact ⟨new, h2, hnew'⟩

/-- User code calls `stop` or `start` for `n`. -/
inductive StopsOrStarts (n : NodeId) : Label V → Prop
  | stop (order : List Id) : StopsOrStarts n (.user (.stop n order))
  | start : StopsOrStarts n (.user (.start n))

theorem Next.calling (h : Next s l s') (hl : StopsOrStarts n l) (hin : s'.Inside s.stack) (hne : k ≠ n) :
    s'.Calling s.stack s.currentNode n k := by
  have same : s'.stack = s.stack → s'.Calling s.stack s.currentNode n k := fun h0 => by
    rw [Inside, h0] at hin
    exact absurd hin (lt_irrefl _)
  have frame : ∀ {g : Frame V} {p : Phase}, s'.stack = g :: s.stack → s'.currentNode = n → g.phase = some p →
      g.below n = s.currentNode → s'.Calling s.stack s.currentNode n k := by
    intro g p hk hn hp hb
    refine ⟨⟨[], g, ⟨hk, hn⟩, by rw [hp]; rfl, hb⟩, [⟨n, p, Refault.taken s.stack⟩], ?_, ?_⟩
    · rw [SimCx.rounds, hk, rounds_cons, hn, hp, hb]
      rfl
    · intro r hr hr'
      rw [List.mem_singleton.mp hr] at hr'
      exact absurd hr'.symm hne
  cases hl with
  | stop order =>
    cases h with
    | skip | exec => exact same rfl
    | stop => exact frame rfl rfl rfl rfl
    | pollDropped _ _ _ _ _ _ hk => rcases hk with ⟨-, hk, -⟩ | ⟨_, _, -, -, hk⟩ <;> cases hk
  | start =>
    cases h with
    | skip | exec => exact same rfl
    | start => exact frame rfl rfl rfl rfl
    | pollDropped _ _ _ _ _ _ hk => rcases hk with ⟨-, hk, -⟩ | ⟨_, _, -, -, hk⟩ <;> cases hk

end SimCx

namespace NetCx

variable {V Q P : Type} [KeyedQueue Q Loc Instant] {f : SendFunction} {b : SimBuilder} {s s' : NetCx V Q P}
  {l : NetLabel V P} {id : Id} {d : Delivery} {D : Instant}

/-- User code does not stop `NodeId::INIT` in a step of `ls`. -/
def SparesInit (ls : List (NetLabel V P)) : Prop := ∀ order, .sim (.user (.stop initNode order)) ∉ ls

theorem up_step (hup : s.sim.Up) (hr : Reachable f b s) (h : step f s l = .ok s')
    (hl : ∀ order, l ≠ .sim (.user (.stop initNode order))) (hf : s'.sim.ex.finalStopped = false) :
    s'.sim.Up := by
  have hR := hr.sim
  rcases (step_next h).user_steps with ⟨order, rfl, hst⟩ | hst
  · exact hup.step hR hst (fun _ => by rintro ⟨⟩) hf
  · refine hst.inv_of (J := SimCx.Reachable b) (I := fun m => m.ex.finalStopped = false → m.Up)
      (fun _ _ _ hm h => hm.tail h) (fun m op m' hm hI h hf => ?_) hR (fun _ => hup) hf
    refine (hI ((SimCx.step_next hm.base h).not_stopped hm.base hf)).step hm h (fun order hop => ?_) hf
    rcases op.2 with ho | ho
    · rw [Label.user.inj hop] at ho
      cases ho
    · exact hl order (ho.trans (congrArg _ hop))

theorem not_stopped (hr : Reachable f b s) (h : Machine.Steps (step f) s s')
    (hf : s'.sim.ex.finalStopped = false) : s.sim.ex.finalStopped = false :=
  (steps_sim h).inv_of (J := SimCx.Base) (I := fun m => m.ex.finalStopped = false → s.sim.ex.finalStopped = false)
    (fun _ _ _ => SimCx.step_base) (fun _ _ _ hB hI h hf => hI ((SimCx.step_next hB h).not_stopped hB hf))
    hr.sim.base (fun h => h) hf

/-- A run that does not stop `NodeId::INIT`, in a simulation that is not stopped. -/
theorem up_run {ls : List (NetLabel V P)} (hup : s.sim.Up) (hr : Reachable f b s)
    (hrun : Machine.run (step f) s ls = .ok s') (hls : SparesInit ls) (hf : s'.sim.ex.finalStopped = false) :
    s'.sim.Up := by
  induction ls using List.reverseRecOn generalizing s' with
  | nil => cases hrun; exact hup
  | append_singleton ls l ih =>
    obtain ⟨m, hm, hst⟩ := Machine.run_append.mp hrun
    have hst := Machine.run_single.mp hst
    have hrm : Reachable f b m := hr.trans ⟨ls, hm⟩
    refine up_step (ih hm (fun order h => hls order (List.mem_append_left _ h)) ?_) hrm hst
      (fun order h0 => hls order (by rw [h0]; simp)) hf
    exact not_stopped hrm (.single hst) hf

theorem upTo_of_spares {ls : List (NetLabel V P)} (hup : s.sim.Up) (hr : Reachable f b s)
    (hrun : Machine.run (step f) s ls = .ok s') (hls : SparesInit ls) (hf : s'.sim.ex.finalStopped = false)
    (D : Instant) : UpTo f D s ls := by
  rintro ls₁ ls₂ m rfl hm -
  obtain ⟨m', hm', hrest⟩ := Machine.run_append.mp hrun
  obtain rfl : m' = m := Except.ok.inj (hm'.symm.trans hm)
  have hrm : Reachable f b m' := hr.trans ⟨ls₁, hm'⟩
  exact up_run hup hr hm' (fun order h => hls order (List.mem_append_left _ h)) (not_stopped hrm ⟨ls₂, hrest⟩ hf)


/-! ## Inboxes -/

/-- User code neither receives from the inbox `r` nor drops its socket. -/
def LeavesInbox (r : InboxRc) : NetLabel V P → Prop
  | .user (.dropSocket r') | .user (.pollReceive r' _) => r' ≠ r
  | _ => True

omit [KeyedQueue Q Loc Instant] in
theorem collect_inbox {n : Net P} {r i : InboxRc} (hi : r = i → n.pointed r = true) :
    (n.collect i).buffer r = n.buffer r := by
  rw [Net.collect_buffer, if_neg]
  rintro ⟨rfl, h⟩
  rw [hi rfl] at h
  cases h

/-- What a step leaves of an inbox that is in the registry. -/
theorem Next.inbox (h : Next f s l s') (hR : s.net.Registry) (hp : ¬ s.Polled l) (hd : s.dropsNet = false)
    {r : InboxRc} (hl : LeavesInbox r l) (hdr : l ≠ .drain r) {key : Key} (hk : s.net.inboxes key = some r) :
    s'.net.inboxes key = some r ∧ s'.net.buffer r = s.net.buffer r := by
  cases h with
  | openSocket port ty owner r' net hu hn ho h =>
    unfold Net.openSocket at h
    split at h
    · cases h
    · rename_i hnone
      simp only [Except.ok.injEq, Prod.mk.injEq] at h
      obtain ⟨rfl, rfl⟩ := h
      have hkey : key ≠ (⟨s.sim.currentNode, port⟩, ty) := by
        rintro rfl
        rw [hk] at hnone
        cases hnone
      have hr : r ≠ s.net.inboxCount := by
        rintro rfl
        have := (hR.fresh _ le_rfl).2.2
        rw [hR.created_of_inboxes hk] at this
        cases this
      exact ⟨by simpa [hkey] using hk, by simp [hr]⟩
  | dropSocket r' sock net hu hn hs h =>
    unfold Net.dropSocket at h
    split_ifs at h with hin
    cases h
    have hr : r' ≠ r := hl
    have hkey : key ≠ sock.key := by
      rintro rfl
      exact hr (Option.some.inj (hin.symm.trans hk))
    exact ⟨by simpa [hkey] using hk, collect_inbox fun h0 => absurd h0.symm hr⟩
  | pollReceive r' clone key' net hu hk' h0 h =>
    have hr : r' ≠ r := hl
    refine ⟨(congrFun (pollReceive_frame (·.inboxes) (fun _ _ => rfl) (fun _ _ _ => rfl) (fun _ _ => rfl)
      (fun _ => Net.collect_inboxes _ _) h) key).trans hk, ?_⟩
    unfold Net.pollReceive at h
    split at h
    · cases h; rfl
    · rename_i msg msgs hmsgs
      obtain ⟨m, hm, h⟩ := Except.bind_eq_ok_iff.mp h
      cases h
      refine (collect_inbox fun h0 => absurd h0.symm hr).trans ?_
      show m.buffer r = _
      rw [(Net.receiveMsg_frame hm).2.1]
      simp [Ne.symm hr]
  | dropReceive r' hu h0 =>
    exact ⟨by simpa [Net.dropReceive] using hk, collect_inbox fun _ => by
      simp [Net.pointed, hR.created_of_inboxes hk, hk]⟩
  | drain r' key' hs hk' hc hn =>
    have hr : r ≠ r' := by
      rintro rfl
      exact hdr rfl
    unfold Net.drain
    split
    · exact ⟨hk, rfl⟩
    · exact ⟨by simpa using hk, by simp [hr]⟩
  | firstPoll loc v caller rest t d sim₁ sim₂ _ hk => exact absurd ⟨⟨caller, rest, hk⟩, loc, v, rfl⟩ hp
  | nextPoll l loc v caller rest t d sim₂ _ hk => exact absurd ⟨⟨caller, rest, hk⟩, l, v, rfl⟩ hp
  | dropNet order sim hd' h => rw [hd] at hd'; cases hd'
  | discard l v id post caller rest ph _ hk' hp hph h
  | discardSleep l loc v id post caller rest sim _ hk' hp hst h =>
    rw [h]
    dsimp only
    split
    · exact ⟨hk, rfl⟩
    · exact ⟨by simpa [Net.abortDelivery] using hk, by simp [Net.abortDelivery]⟩
  | _ => exact ⟨hk, rfl⟩

/-- A step other than a poll of a future of `enqueue` makes at most one step of the simulation. -/
theorem Next.sim_step (h : Next f s l s') (hp : ¬ s.Polled l) : s'.sim = s.sim ∨
    ∃ l', s.sim.step l' = .ok s'.sim ∧ ∀ n, l' = .user (.start n) → l = .sim (.user (.start n)) := by
  have spawn : ∀ {id : Id} {sim : SimCx V Q}, s.userCode = true → s.sim.spawnTaskOnNode initNode = .ok (id, sim) →
      ∃ l', s.sim.step l' = .ok sim ∧ ∀ n, l' = .user (.start n) → l = .sim (.user (.start n)) :=
    fun hu h => ⟨_, SimCx.step_spawn (inUser_of_userCode hu) h, fun n h => by cases h⟩
  cases h with
  | sim op sim hu hp h => exact Or.inr ⟨_, h, fun n h0 => by rw [h0]⟩
  | run order sim hd h | dropNet order sim hd h => exact Or.inr ⟨_, h, fun n h0 => by cases h0⟩
  | sendPerfect op src dst packet level latency t id sim hu hf ht h => exact Or.inr (spawn hu h)
  | enqueuePacket t rc w id sim hu hw h0 h => exact Or.inr (spawn hu h)
  | enqueueError t dst ty kind id sim hu h => exact Or.inr (spawn hu h)
  | firstPoll loc v caller rest t d sim₁ sim₂ _ hk => exact absurd ⟨⟨caller, rest, hk⟩, loc, v, rfl⟩ hp
  | nextPoll l loc v caller rest t d sim₂ _ hk => exact absurd ⟨⟨caller, rest, hk⟩, l, v, rfl⟩ hp
  | returns l v caller rest t sim hk => exact absurd ⟨⟨caller, rest, hk⟩, l, v, rfl⟩ hp
  | discard l v i post caller rest ph _ hk hp hph h => rw [h]; exact Or.inl rfl
  | discardSleep l loc v i post caller rest sim _ hk hp h he =>
    rw [he]
    exact Or.inr ⟨_, h, fun n h0 => by cases h0⟩
  | _ => exact Or.inl rfl

omit [KeyedQueue Q Loc Instant] in
theorem dropSims_rest {c : CxCell} {r : Bool} {time : Duration} {rest : List (Frame V)}
    (h : Shape c r (.dropSims time :: rest)) : rest = [] := by
  cases h with
  | free h => exact h.dropSims_eq.1

variable {base : List (Frame V)} {c n : NodeId} {r : InboxRc} {key : Key}

/-- In a step of a call of `stop` or `start` for another node, an inbox is what user code makes of it. -/
theorem calling_step (hC : s.sim.Calling base c n key.1.node) (hr : Reachable f b s) (h : step f s l = .ok s')
    (hl : LeavesInbox r l) (hstart : l ≠ .sim (.user (.start key.1.node))) (hk : s.net.inboxes key = some r) :
    (s'.sim.stack = base ∨ s'.sim.Calling base c n key.1.node) ∧
      s'.net.inboxes key = some r ∧ s'.net.buffer r = s.net.buffer r := by
  have hL := hr.linked
  have hB := hL.reach.base
  have hn := step_next h
  obtain ⟨rd, new, hrd, hnew⟩ := hC.first
  have hp : ¬ s.Polled l := fun hp => by
    rw [rounds_polled hB hp] at hrd
    cases hrd
  have hd : s.dropsNet = false := by
    unfold dropsNet
    split
    · rename_i time rest hk
      have hS := hB.shape
      rw [hk] at hS
      rw [SimCx.rounds, hk, dropSims_rest hS] at hrd
      simp [Frame.phase] at hrd
    · rfl
  refine ⟨?_, hn.inbox hL.registry hp hd hl ?_ hk⟩
  · rcases hn.sim_step hp with h0 | ⟨l', hst, hl'⟩
    · rw [h0]
      exact Or.inr hC
    · exact hC.step hB (SimCx.step_next hB hst) (fun h0 => hstart (hl' _ h0))
        (hr.placed r key (hL.registry.created_of_inboxes hk))
  · -- `Net` is called for the node of the first round only
    rintro rfl
    cases hn with
    | drain _ key' hs hk' hc hnode =>
      obtain rfl : key = key' := Option.some.inj ((hL.registry.created_of_inboxes hk).symm.trans hc)
      obtain ⟨i, cb, len, idx, c', rest, hcb, hstack⟩ := inStartNode_stack hs
      rw [SimCx.rounds, hstack] at hrd
      simp only [rounds_cons, Frame.phase, Frame.below, Option.map_none, Option.toList_none, List.nil_append,
        Option.map_some, Option.toList_some, List.singleton_append] at hrd
      obtain ⟨rfl, -⟩ := List.cons.inj hrd
      exact hcb (hnew _ List.mem_cons_self hnode.symm cb idx rfl)

/-- A run inside the call that was made from `base`.  The destructors and callbacks that run meanwhile leave the
inbox `r` alone, and do not start the node `k`. -/
abbrev WithinBeside (f : SendFunction) (base : List (Frame V)) (r : InboxRc) (k : NodeId) (s : NetCx V Q P)
    (ls : List (NetLabel V P)) : Prop :=
  Machine.Along (step f) (fun m l => m.sim.Inside base ∧ LeavesInbox r l ∧ l ≠ .sim (.user (.start k))) s ls

/-- **A stop or a start leaves the inboxes of other nodes alone**, up to its return. -/
theorem Reachable.inbox_kept {l₀ : Label V} {s₁ : NetCx V Q P} {ls : List (NetLabel V P)} (hr : Reachable f b s)
    (hl₀ : SimCx.StopsOrStarts n l₀) (hst : step f s (.sim l₀) = .ok s₁)
    (hw : WithinBeside f s.sim.stack r key.1.node s₁ ls) (hrun : Machine.run (step f) s₁ ls = .ok s')
    (hne : key.1.node ≠ n) (hk : s.net.inboxes key = some r) :
    s'.net.inboxes key = some r ∧ s'.net.buffer r = s.net.buffer r := by
  have hnext := SimCx.step_next hr.sim.base (step_simStep hst)
  have h₁ : s₁.net = s.net := by
    cases hl₀ with
    | stop order => cases step_next hst with | sim => rfl
    | start => cases step_next hst with | sim => rfl
  refine (hw.inv (I := fun m => Reachable f b m ∧ (m.sim.Inside s.sim.stack →
      m.sim.Calling s.sim.stack s.sim.currentNode n key.1.node) ∧
      m.net.inboxes key = some r ∧ m.net.buffer r = s.net.buffer r) ?_ hrun
    ⟨hr.tail hst, fun hin => hnext.calling hl₀ hin hne, by rw [h₁]; exact ⟨hk, rfl⟩⟩).2.2
  rintro m l m' ⟨hm, hC, hin, hbuf⟩ ⟨hins, hl, hstart⟩ h
  obtain ⟨h1, h2, h3⟩ := calling_step (hC hins) hm h hl hstart hin
  refine ⟨hm.tail h, fun hins' => h1.resolve_left fun h0 => ?_, h2, h3.trans hbuf⟩
  rw [SimCx.Inside, h0] at hins'
  exact lt_irrefl _ hins'

/-! ## Sends -/

/-- Calls of user code that send a packet, or enqueue one or an error. -/
inductive Emits : NetOp P → Prop
  | send (dst : Addr) (packet : Packet P) (level : ServiceLevel) (op : NetOp P) (h : Sends dst packet level op) :
      Emits op
  | enqueuePacket (t : Instant) (rc : PacketRc) : Emits (.enqueuePacket t rc)
  | enqueueError (t : Instant) (dst : Addr) (ty : TypeId) (kind : ErrorKind) : Emits (.enqueueError t dst ty kind)

/-- How such a call fails while `NodeId::INIT` is up: it cannot be made there, the ids or the instants have run
out, or the socket is used outside its node. -/
inductive EmitFails (f : SendFunction) (s : NetCx V Q P) (op : NetOp P) : NetHalt → Prop
  | disabled : EmitFails f s op (.halt .disabled)
  | ids (h : s.sim.ex.preNextGlobalId + 1 = 2 ^ 64) : EmitFails f s op (.halt (.panic .idsExhausted))
  | overflow (latency : Duration) (hf : f = .perfectConnectivity latency) (h : s.now.checkedAdd latency = none) :
      EmitFails f s op (.panic .instantOverflow)
  | elsewhere (r : InboxRc) (sock : Socket) (dst : Addr) (packet : Packet P) (level : ServiceLevel)
      (ho : op = .socketSend r dst packet level) (hs : s.net.sockets r = some sock)
      (h : sock.localAddr.node ≠ s.sim.currentNode) : EmitFails f s op (.panic .sendNode)

omit [KeyedQueue Q Loc Instant] in
theorem spawnDelivery_error {e : NetHalt} (hI : s.sim.ex.Inv) (hup : s.sim.Up) (hc : s.sim.cell = .free)
    (h : s.spawnDelivery = .error e) :
    s.sim.ex.preNextGlobalId + 1 = 2 ^ 64 ∧ e = .halt (.panic .idsExhausted) := by
  unfold spawnDelivery SimCx.spawnTaskOnNode at h
  simp only [SimCx.borrow, hc] at h
  cases hs : s.sim.ex.spawn initNode with
  | ok a => rw [hs] at h; cases h
  | error p =>
    rw [hs] at h
    cases h
    obtain ⟨nd, hnd, hrun⟩ := Option.map_eq_some_iff.mp hup.1
    unfold Exec.spawn at hs
    rw [hnd] at hs
    simp only [hrun] at hs
    rcases Except.bind_eq_error_iff.mp hs with hs | ⟨id, -, hs⟩
    · obtain ⟨h0, rfl⟩ := (Exec.newId_panic hI.bound).mp hs
      exact ⟨h0, rfl⟩
    · have hst : (s.sim.ex.insertTask initNode id).state id ≠ .taskEnd := by
        rw [Exec.state_insertTask]
        simp
      obtain ⟨e', he'⟩ := Exec.wakeByRef_ok hst
      rw [he'] at hs
      cases hs

omit [KeyedQueue Q Loc Instant] in
theorem free_of_hasNet (hS : Shape s.sim.cell s.sim.ex.running.isSome s.sim.stack) (h : s.hasNet = true) :
    s.sim.cell = .free := by
  simp only [hasNet, Bool.and_eq_true, List.any_eq_true] at h
  obtain ⟨⟨g, hg, hnet⟩, -⟩ := h
  generalize s.sim.cell = c at hS ⊢
  generalize s.sim.ex.running.isSome = r at hS
  generalize s.sim.stack = st at hS hg
  cases hS with
  | free => rfl
  | _ => simp at hg; rcases hg with rfl | rfl | rfl <;> cases hnet

theorem after_error {t : Instant} {d : Duration} {e : NetHalt} (h : inNet (after t d) = .error e) :
    t.checkedAdd d = none ∧ e = .panic .instantOverflow := by
  unfold after at h
  split at h
  · rename_i hnone
    cases h
    exact ⟨hnone, rfl⟩
  · cases h

/-- The call `op` is made with `Net` at hand, in a state with the simulation of `m`. -/
theorem Reachable.spawn_fails (hr : Reachable f b s) (hup : s.sim.Up) (hn : s.hasNet = true) (op : NetOp P)
    {m : NetCx V Q P} (hm : m.sim = s.sim) {e : NetHalt} (h : m.spawnDelivery = .error e) :
    EmitFails f s op e := by
  have hB := hr.sim.base
  obtain ⟨h1, rfl⟩ := spawnDelivery_error (s := m) (by rw [hm]; exact hB.exec) (by rw [hm]; exact hup)
    (by rw [hm]; exact free_of_hasNet hB.shape hn) h
  rw [hm] at h1
  exact .ids h1

theorem Reachable.enqueue_fails (hr : Reachable f b s) (hup : s.sim.Up) (hn : s.hasNet = true) (op : NetOp P)
    {m : NetCx V Q P} (hm : m.sim = s.sim) {t : Instant} {rc : PacketRc} {e : NetHalt}
    (h : m.enqueuePacket t rc = .error e) : EmitFails f s op e := by
  unfold enqueuePacket at h
  split at h
  · cases h
    exact .disabled
  · split_ifs at h
    · rcases Except.bind_eq_error_iff.mp h with h | ⟨a, -, h⟩
      · exact hr.spawn_fails hup hn op hm h
      · cases h
    · cases h
      exact .disabled

theorem Reachable.sendWrapped_fails (hr : Reachable f b s) (hup : s.sim.Up) (hn : s.hasNet = true) (op : NetOp P)
    {src dst : Addr} {packet : Packet P} {level : ServiceLevel} {e : NetHalt}
    (hsrc : src.node ≠ s.sim.currentNode → EmitFails f s op (.panic .sendNode))
    (h : s.sendWrapped f src dst packet level = .error e) : EmitFails f s op e := by
  unfold sendWrapped at h
  split_ifs at h with h0
  · cases f with
    | custom => cases h
    | perfectConnectivity latency =>
      rcases Except.bind_eq_error_iff.mp h with h | ⟨t, -, h⟩
      · obtain ⟨hnone, rfl⟩ := after_error h
        exact .overflow latency rfl hnone
      · refine hr.enqueue_fails hup hn op ?_ h
        rfl
  · cases h
    exact hsrc h0

/-- **Sends**: while `NodeId::INIT` runs, no send fails because of a node that was stopped. -/
theorem Reachable.emit_fails (hr : Reachable f b s) (hup : s.sim.Up) {op : NetOp P} (hop : Emits op) {e : NetHalt}
    (h : s.step f (.user op) = .error e) : EmitFails f s op e := by
  have off : ∀ {A : Type}, (disabled : Except NetHalt A) = .error e → EmitFails f s op e := fun h => by
    cases h
    exact .disabled
  simp only [step] at h
  split_ifs at h with hu
  · cases hop with
    | send dst packet level _ hsend =>
      cases hsend with
      | send port =>
        simp only [userOp] at h
        split_ifs at h with hn
        · exact hr.sendWrapped_fails hup hn _ (fun h0 => absurd rfl h0) h
        · exact off h
      | socketSend r =>
        simp only [userOp] at h
        split at h
        · exact off h
        · rename_i sock hs
          split_ifs at h with hn
          · exact hr.sendWrapped_fails hup hn _ (fun h0 => .elsewhere r sock dst packet level rfl hs h0) h
          · exact off h
    | enqueuePacket t rc =>
      simp only [userOp] at h
      split_ifs at h with hn
      · exact hr.enqueue_fails hup hn _ rfl h
      · exact off h
    | enqueueError t dst ty kind =>
      simp only [userOp] at h
      split_ifs at h with hn
      · rcases Except.bind_eq_error_iff.mp h with h | ⟨a, -, h⟩
        · exact hr.spawn_fails hup hn _ rfl h
        · cases h
      · exact off h
  · exact off h

/-! ## Traffic -/

/-- **A stop or a restart of a node disturbs no traffic of other nodes**, unless the node is `NodeId::INIT`.  In a
run in which user code does not stop that node, every message that is enqueued is under way until its time, and
there is one attempt to deliver it then; a stop or a start leaves the inboxes of the other nodes as they are; and
no send panics because of a node that was stopped. -/
theorem stops_disturb_no_traffic {ls : List (NetLabel V P)} (hrun : Machine.run (step f) (install b) ls = .ok s)
    (hls : SparesInit ls) (hf : s.sim.ex.finalStopped = false) :
    (∀ ls₁ ls₂ l m m₁ id d, ls = ls₁ ++ l :: ls₂ → Machine.run (step f) (install b) ls₁ = .ok m →
      step f m l = .ok m₁ → Machine.run (step f) m₁ ls₂ = .ok s → m.net.inFlight id = none →
      m₁.net.inFlight id = some d →
      UnderWay f s id d (max m.now d.at_) ∨ DeliveredAt f m₁ ls₂ s id d (max m.now d.at_)) ∧
    (∀ n l₀ s₁ ls' s' key r, SimCx.StopsOrStarts n l₀ → step f s (.sim l₀) = .ok s₁ →
      WithinBeside f s.sim.stack r key.1.node s₁ ls' → Machine.run (step f) s₁ ls' = .ok s' →
      key.1.node ≠ n → s.net.inboxes key = some r →
      s'.net.inboxes key = some r ∧ s'.net.buffer r = s.net.buffer r) ∧
    ∀ op e, Emits op → step f s (.user op) = .error e → EmitFails f s op e := by
  have hr : Reachable f b s := ⟨ls, hrun⟩
  have h₀ : (install b : NetCx V Q P).sim.Up := ⟨rfl, rfl⟩
  refine ⟨?_, fun n l₀ s₁ ls' s' key r hl₀ hst hw hrun' hne hk => hr.inbox_kept hl₀ hst hw hrun' hne hk,
    fun op e hop h => hr.emit_fails (up_run h₀ ⟨[], rfl⟩ hrun hls hf) hop h⟩
  rintro ls₁ ls₂ l m m₁ id d rfl hm hst hrun' h0 hd
  have hrm : Reachable f b m := ⟨ls₁, hm⟩
  have hrm₁ : Reachable f b m₁ := hrm.tail hst
  have hfm₁ := not_stopped hrm₁ ⟨ls₂, hrun'⟩ hf
  have hup : m.sim.Up := up_run h₀ ⟨[], rfl⟩ hm (fun order h => hls order (List.mem_append_left _ h))
    (not_stopped hrm (.single hst) hfm₁)
  have hup₁ : m₁.sim.Up := up_step hup hrm hst (fun order h => hls order (by simp [h])) hfm₁
  have hupTo := upTo_of_spares hup₁ hrm₁ hrun' (fun order h => hls order (by simp [h])) hf (max m.now d.at_)
  obtain ⟨hA, hj⟩ := hrm.awaited hst h0 hd
  exact (hA.run hrm₁ hrun' hupTo).imp_left fun hA' => hA'.underWay hrm₁ hj hrun' hupTo

def createRun : List (NetLabel ℕ ℕ) :=
  [.sim (.user .createNode), .sim (.run []), .sim (.user (.done none)), .sim (.run [])]

/-- Node 1 is created, stopped and started again, and time goes on to the attempt. -/
def restartRun : List (NetLabel ℕ ℕ) :=
  .sim (.user (.done none)) :: createRun ++
    [.sim (.user (.stop 1 [])), .sim (.run []), .sim (.run []), .sim (.user (.done none)), .sim (.run []),
      .sim (.user (.start 1)), .sim (.run []), .sim (.user (.done none)), .sim (.run [])] ++ laterRun.drop 1

/-- A packet for `NodeId::INIT` arrives, with another node restarted on its way. -/
theorem stops_disturb_no_traffic_restart : ∃ s₁ s' : NetCx ℕ (SwapArray Loc Instant) ℕ,
    Machine.run (step later) s₁ restartRun = .ok s' ∧
      DeliveredAt later s₁ restartRun s' 2 ⟨SimCx.fiveSeconds, (⟨0, 7⟩, 3), .packet 0⟩ SimCx.fiveSeconds := by
  obtain ⟨m₀, hm, hq⟩ : ∃ m : NetCx ℕ (SwapArray Loc Instant) ℕ, Machine.run (step later)
      (install SimCx.epoch) openedRun = .ok m ∧
      (m.net.inFlight 2, decide (m.now ≤ SimCx.fiveSeconds)) = (none, true) :=
    Machine.exists_of_run (by decide +kernel)
  obtain ⟨s₁, hs₁, hq₁⟩ : ∃ s₁ : NetCx ℕ (SwapArray Loc Instant) ℕ, Machine.run (step later) (install SimCx.epoch)
      (openedRun ++ [.user (.send 1 ⟨0, 7⟩ ⟨3, 42⟩ .ofPacket)]) = .ok s₁ ∧
      s₁.net.inFlight 2 = some ⟨SimCx.fiveSeconds, (⟨0, 7⟩, 3), .packet 0⟩ :=
    Machine.exists_of_run (by decide +kernel)
  obtain ⟨s', hs', hq'⟩ : ∃ s' : NetCx ℕ (SwapArray Loc Instant) ℕ, Machine.run (step later) (install SimCx.epoch)
      (openedRun ++ .user (.send 1 ⟨0, 7⟩ ⟨3, 42⟩ .ofPacket) :: restartRun) = .ok s' ∧
      (s'.net.inFlight 2, s'.sim.ex.finalStopped) = (none, false) := Machine.exists_of_run (by decide +kernel)
  obtain ⟨m, h1, h2⟩ := Machine.run_append.mp hs₁
  obtain rfl : m = m₀ := Except.ok.inj (h1.symm.trans hm)
  have hst := Machine.run_single.mp h2
  obtain ⟨m', h3, h4⟩ := Machine.run_append.mp hs'
  obtain rfl : m' = m := Except.ok.inj (h3.symm.trans hm)
  obtain ⟨k, h5, hrun⟩ := Machine.run_cons.mp h4
  obtain rfl : k = s₁ := Except.ok.inj (h5.symm.trans hst)
  simp only [Prod.mk.injEq, decide_eq_true_eq] at hq hq'
  have hspares : SparesInit (openedRun ++ .user (.send 1 ⟨0, 7⟩ ⟨3, 42⟩ .ofPacket) :: restartRun) :=
    fun order h => by simp [openedRun, restartRun, createRun, laterRun] at h
  have h := (stops_disturb_no_traffic hs' hspares hq'.2).1 _ _ _ _ _ _ _ rfl hm hst hrun hq.1 hq₁
  rw [max_eq_right hq.2] at h
  refine ⟨k, s', hrun, h.resolve_left fun hU => ?_⟩
  rw [hU.flight] at hq'
  cases hq'.1

/-- A task of node 2 opens a socket, and then a task of node 1 takes `Net`. -/
def apartRun : List (NetLabel ℕ ℕ) :=
  [.sim (.user (.addSimulator netTy)), .sim (.user (.done none)), .sim (.run [])] ++ createRun ++ createRun ++
    [.sim (.user (.spawn 2)), .sim (.user (.spawn 1)), .sim (.user (.done none)), .sim (.run []),
      .user (.openSocket 7 3 (some 2)), .sim (.user (.done none)), .sim (.run []),
      .sim (.user (.withSimulator netTy))]

/-- The task of node 1 stops `NodeId::INIT`. -/
def stopInitRun : List (NetLabel ℕ ℕ) :=
  [.sim (.user (.done none)), .sim (.user (.stop 0 [1, 4])), .sim (.run []), .sim (.user (.done none)),
    .sim (.run []), .delivery 0 0, .sim (.user (.done none)), .sim (.run []), .sim (.run []),
    .sim (.user (.done none)), .sim (.run [])]

/-- A packet that may not be dropped. -/
def reliable : ServiceLevel := ⟨none, false, false⟩

/-- The packet from node 1 to node 2 is lost when a third node, `NodeId::INIT`, is stopped. -/
theorem stop_of_init_disturbs_traffic : ¬ ∀ (f : SendFunction) (b : SimBuilder) (ls₁ ls₂ : List (NetLabel ℕ ℕ))
    (l : NetLabel ℕ ℕ) (m m₁ s : NetCx ℕ (SwapArray Loc Instant) ℕ) (id : Id) (d : Delivery) (rc : PacketRc)
    (w : WrappedPacket ℕ), Machine.run (step f) (install b) ls₁ = .ok m → step f m l = .ok m₁ →
    Machine.run (step f) m₁ ls₂ = .ok s → m.net.inFlight id = none → m₁.net.inFlight id = some d →
    d.msg = .packet rc → m₁.net.packets rc = some w →
    (∀ n order, .sim (.user (.stop n order)) ∈ ls₂ → n ≠ w.header.src.node ∧ n ≠ w.header.dst.node) →
    s.sim.ex.finalStopped = false →
    UnderWay f s id d (max m.now d.at_) ∨ DeliveredAt f m₁ ls₂ s id d (max m.now d.at_) := by
  obtain ⟨m₀, hm, hq⟩ : ∃ m : NetCx ℕ (SwapArray Loc Instant) ℕ, Machine.run (step later)
      (install SimCx.epoch) apartRun = .ok m ∧ m.net.inFlight 4 = none := Machine.exists_of_run (by decide +kernel)
  obtain ⟨m₁, hm₁, hq₁⟩ : ∃ m₁ : NetCx ℕ (SwapArray Loc Instant) ℕ, Machine.run (step later) (install SimCx.epoch)
      (apartRun ++ [.user (.send 8 ⟨2, 7⟩ ⟨3, 41⟩ reliable)]) = .ok m₁ ∧
      (m₁.net.inFlight 4, m₁.net.packets 0) = (some ⟨SimCx.fiveSeconds, (⟨2, 7⟩, 3), .packet 0⟩,
        some (.new ⟨1, 8⟩ ⟨2, 7⟩ ⟨3, 41⟩ reliable)) := Machine.exists_of_run (by decide +kernel)
  obtain ⟨s, hs, hq'⟩ : ∃ s : NetCx ℕ (SwapArray Loc Instant) ℕ, Machine.run (step later) (install SimCx.epoch)
      (apartRun ++ .user (.send 8 ⟨2, 7⟩ ⟨3, 41⟩ reliable) :: stopInitRun) = .ok s ∧
      (s.net.inFlight 4, s.net.attemptsBy 4, s.sim.ex.finalStopped) = (none, [], false) :=
    Machine.exists_of_run (by decide +kernel)
  obtain ⟨m, h1, h2⟩ := Machine.run_append.mp hm₁
  obtain rfl : m = m₀ := Except.ok.inj (h1.symm.trans hm)
  have hst := Machine.run_single.mp h2
  obtain ⟨m', h3, h4⟩ := Machine.run_append.mp hs
  obtain rfl : m' = m := Except.ok.inj (h3.symm.trans hm)
  obtain ⟨k, h5, hrun⟩ := Machine.run_cons.mp h4
  obtain rfl : k = m₁ := Except.ok.inj (h5.symm.trans hst)
  simp only [Prod.mk.injEq] at hq₁ hq'
  have hapart : ∀ n order, (.sim (.user (.stop n order)) : NetLabel ℕ ℕ) ∈ stopInitRun → n ≠ 1 ∧ n ≠ 2 := by
    intro n order h
    simp only [stopInitRun, List.mem_cons, NetLabel.sim.injEq, Label.user.injEq, Op.stop.injEq, reduceCtorEq,
      false_or, List.not_mem_nil, or_false] at h
    obtain ⟨rfl, -⟩ := h
    decide
  intro hall
  rcases hall later SimCx.epoch apartRun stopInitRun _ m' k s 4 _ 0 _ hm hst hrun hq hq₁.1 rfl hq₁.2 hapart
    hq'.2.2 with hU | hD
  · rw [hU.flight] at hq'
    cases hq'.1
  · cases hD with
    | mk ls₁ ls₂ l m m' split before attempt after now unmade once buffer =>
      rw [once] at hq'
      cases hq'.2.1

end NetCx

end Refault
