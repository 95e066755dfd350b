import Refault.Step

/-!
# Refault.Calls — what a step does to the control stack, and what a call returns to

A step either pops the top frame, which gives the current node back to the frame below, or it puts frames on
top of the frame that continues the old one (`Next.top`).  So a run inside a call does not touch the frames
the call was made from, and the call leaves the current node as it was (`Within.returns`).
-/

namespace Refault

variable {V Q : Type}

/-- The node that is current again when the frames `top` are gone. -/
def nodeUnder (cur : NodeId) (top : List (Frame V)) : NodeId := top.foldl (fun cur f => f.below cur) cur

section NodeUnder

variable (cur : NodeId) (f : Frame V) (fs gs : List (Frame V))

@[simp] theorem nodeUnder_nil : nodeUnder cur ([] : List (Frame V)) = cur := rfl
@[simp] theorem nodeUnder_cons : nodeUnder cur (f :: fs) = nodeUnder (f.below cur) fs := rfl
@[simp] theorem nodeUnder_append : nodeUnder cur (fs ++ gs) = nodeUnder (nodeUnder cur fs) gs :=
  List.foldl_append ..

/-- A frame fits the node that is current when it is on top. -/
theorem Scoped.fits {e : Exec V} {cur : NodeId} {top rest : List (Frame V)} {f : Frame V}
    (h : Scoped e cur (top ++ f :: rest)) : f.Fits e (nodeUnder cur top) := by
  induction top generalizing cur with
  | nil => exact h.1
  | cons g top ih => exact ih h.2

end NodeUnder

/-- `g` stands where `f` stood: only the ids or indices still to be visited differ, or `f` has turned into the
frame that follows it. -/
inductive Frame.Cont : Frame V → Frame V → Prop
  | refl (f : Frame V) : Cont f f
  | init : Cont .init .loop
  | loop : Cont .loop .destroy
  | poll (v : V) (c : NodeId) : Cont (.poll c) (.rootStop v c)
  | pollEnd (id : Id) (c : NodeId) : Cont (.poll c) (.discard id true c)
  | rootEnd (v : V) (id : Id) (c : NodeId) : Cont (.rootStop v c) (.discard id true c)
  | stopNext (id : Id) (ids : List Id) (c : NodeId) : Cont (.stopNode (id :: ids) c) (.stopNode ids c)
  | stopSims (len : ℕ) (idx : List ℕ) (c : NodeId) : Cont (.stopNode [] c) (.sims .stop len idx c)
  | simsNext (cb : Callback) (len i : ℕ) (idx : List ℕ) (c : NodeId) :
      Cont (.sims cb len (i :: idx) c) (.sims cb len idx c)
  | stopAll (node : NodeId) (nodes : List NodeId) : Cont (.stopAll (node :: nodes)) (.stopAll nodes)
  | destroy (time : Duration) : Cont .destroy (.dropSims time)
  | taken (time : Duration) : Cont (.dropSims time) (.finished time)

theorem Frame.Cont.below {f g : Frame V} (h : f.Cont g) (cur : NodeId) : g.below cur = f.below cur := by
  cases h <;> rfl

namespace SimCx

variable [KeyedQueue Q Loc Instant] {s s' : SimCx V Q} {l : Label V}

/-- **The top of the stack**: a step returns from the top frame, or puts frames on top of the one that
continues it. -/
theorem Next.top (h : Next s l s') {f : Frame V} {rest : List (Frame V)} (hk : s.stack = f :: rest) :
    (s'.stack = rest ∧ s'.currentNode = f.below s.currentNode) ∨
    ∃ gs g, s'.stack = gs ++ g :: rest ∧ f.Cont g ∧ nodeUnder s'.currentNode gs = s.currentNode := by
  have hsame : s'.stack = s.stack → s'.currentNode = s.currentNode →
      ∃ gs g, s'.stack = gs ++ g :: rest ∧ f.Cont g ∧ nodeUnder s'.currentNode gs = s.currentNode :=
    fun h1 h2 => ⟨[], f, h1.trans hk, .refl f, h2⟩
  -- a frame `g` that `f` calls, and that goes back to the current node
  have hpush : ∀ g : Frame V, s'.stack = g :: s.stack → g.below s'.currentNode = s.currentNode →
      ∃ gs g, s'.stack = gs ++ g :: rest ∧ f.Cont g ∧ nodeUnder s'.currentNode gs = s.currentNode :=
    fun g h1 h2 => ⟨[g], f, by rw [h1, hk]; rfl, .refl f, h2⟩
  have hinj : ∀ {f' : Frame V} {rest' : List (Frame V)}, s.stack = f' :: rest' → f' = f ∧ rest' = rest := by
    intro f' rest' h'
    rw [hk] at h'
    exact ⟨(List.cons.inj h').1.symm, (List.cons.inj h').2.symm⟩
  cases h with
  | abort id hu hc hl hp => exact Or.inr (hpush _ rfl rfl)
  | stop node order nd hu hc hn hrun hnd ho => exact Or.inr (hpush _ rfl rfl)
  | start node hu hc hrun => exact Or.inr (hpush _ rfl rfl)
  | createNode hu hc hf => exact Or.inr (hpush _ rfl rfl)
  | stopSimulation hu hc => exact Or.inr (hpush _ rfl rfl)
  | withSimulator ty i sim hu hc hs => exact Or.inr (hpush _ rfl rfl)
  | doneInit r rest' id hk' hc hrun hid hlt =>
    obtain ⟨rfl, rfl⟩ := hinj hk'
    exact Or.inr ⟨[], _, rfl, .init, rfl⟩
  | doneWaker r rest' hk' | doneDropSim r rest' hk' | stopAllDone order rest' hk' | wakeDone order rest' hk' hs =>
    obtain ⟨rfl, rfl⟩ := hinj hk'
    exact Or.inl ⟨rfl, rfl⟩
  | rootReady v caller rest' id hk' hc hr hroot hret =>
    obtain ⟨rfl, rfl⟩ := hinj hk'
    exact Or.inr ⟨[_], _, rfl, .poll v caller, rfl⟩
  | pollKept caller rest' id hk' hc hr hl =>
    obtain ⟨rfl, rfl⟩ := hinj hk'
    exact Or.inl ⟨rfl, rfl⟩
  | pollDropped l caller rest' id r e hk' hc hr hd he ha hr' hf =>
    rcases hk' with ⟨hk', -⟩ | ⟨v, order, hk', -⟩ <;> obtain ⟨rfl, rfl⟩ := hinj hk'
    · exact Or.inr ⟨[], _, rfl, .pollEnd id caller, rfl⟩
    · exact Or.inr ⟨[], _, rfl, .rootEnd v id caller, rfl⟩
  | doneDiscard r id post caller rest' hk' =>
    obtain ⟨rfl, rfl⟩ := hinj hk'
    exact Or.inl ⟨rfl, rfl⟩
  | putBack r i sim rest' hk' hc hs =>
    rcases hk' with hk' | hk' <;> obtain ⟨rfl, rfl⟩ := hinj hk' <;> exact Or.inl ⟨rfl, rfl⟩
  | exhausted order rest' hk' hc hq hp =>
    obtain ⟨rfl, rfl⟩ := hinj hk'
    exact Or.inr ⟨[], _, rfl, .loop, rfl⟩
  | advance order rest' loc next time hk' hc hq hp ht =>
    obtain ⟨rfl, rfl⟩ := hinj hk'
    exact Or.inr ⟨[_], _, rfl, .refl _, rfl⟩
  | poll order rest' id q hk' hc hf hq hs hr =>
    obtain ⟨rfl, rfl⟩ := hinj hk'
    exact Or.inr ⟨[_], _, rfl, .refl _, rfl⟩
  | wakeCustom order rest' loc t n q hk' hp hs =>
    obtain ⟨rfl, rfl⟩ := hinj hk'
    exact Or.inr ⟨[_], _, rfl, .refl _, rfl⟩
  | stopNext order id ids caller rest' e hk' hc hl =>
    obtain ⟨rfl, rfl⟩ := hinj hk'
    exact Or.inr ⟨[], _, rfl, .stopNext id ids caller, rfl⟩
  | stopDrop order id ids caller rest' hk' hc hl hp =>
    obtain ⟨rfl, rfl⟩ := hinj hk'
    exact Or.inr ⟨[_], _, rfl, .stopNext id ids caller, rfl⟩
  | stopSims order caller rest' hk' hc =>
    obtain ⟨rfl, rfl⟩ := hinj hk'
    exact Or.inr ⟨[], _, rfl, .stopSims _ _ caller, rfl⟩
  | simsNext order cb len i idx caller rest' sim hk' hc hs =>
    obtain ⟨rfl, rfl⟩ := hinj hk'
    exact Or.inr ⟨[_], _, rfl, .simsNext cb len i idx caller, rfl⟩
  | simsDone order cb len caller rest' hk' hc hlen =>
    obtain ⟨rfl, rfl⟩ := hinj hk'
    exact Or.inl ⟨rfl, rfl⟩
  | stopAllRun order node nodes rest' nd hk' hc hn hrun hnd ho =>
    obtain ⟨rfl, rfl⟩ := hinj hk'
    exact Or.inr ⟨[_], _, rfl, .stopAll node nodes, rfl⟩
  | stopAllSkip order node nodes rest' nd hk' hc hn hrun =>
    obtain ⟨rfl, rfl⟩ := hinj hk'
    exact Or.inr ⟨[], _, rfl, .stopAll node nodes, rfl⟩
  | destroy order rest' hk' hc hq =>
    obtain ⟨rfl, rfl⟩ := hinj hk'
    exact Or.inr ⟨[_], _, rfl, .destroy _, rfl⟩
  | dropSim order time rest' sim hk' hc hs =>
    obtain ⟨rfl, rfl⟩ := hinj hk'
    exact Or.inr ⟨[_], _, rfl, .refl _, rfl⟩
  | taken order time rest' hk' hc hs =>
    obtain ⟨rfl, rfl⟩ := hinj hk'
    exact Or.inr ⟨[], _, rfl, .taken time, rfl⟩
  | _ => exact Or.inr (hsame rfl rfl)

/-- A frame that a step puts on the stack, with what is known of it. -/
inductive Pushed (s s' : SimCx V Q) : Frame V → Prop
  | poll (c : NodeId) (hf : s.ex.finalStopped = false) : Pushed s s' (.poll c)
  | callback (i : ℕ) (sim : SimTy) (hs : s.simulators[i]? = some (some sim)) : Pushed s s' (.callback i sim)
  | withSim (i : ℕ) (sim : SimTy) (hs : s.simulators[i]? = some (some sim)) : Pushed s s' (.withSim i sim)
  | dropSims (hk : .destroy ∈ s.stack) (ht : s'.time = s.time) (hf : s'.ex.finalStopped = true) :
      Pushed s s' (.dropSims s.time)
  | finished (time : Duration) (hk : .dropSims time ∈ s.stack) (ht : s'.time = s.time) :
      Pushed s s' (.finished time)
  | loop : Pushed s s' .loop
  | waking : Pushed s s' .waking
  | waker : Pushed s s' .waker
  | destroy : Pushed s s' .destroy
  | dropSim : Pushed s s' .dropSim
  | rootStop (v : V) (c : NodeId) : Pushed s s' (.rootStop v c)
  | discard (id : Id) (post : Bool) (c : NodeId) : Pushed s s' (.discard id post c)
  | stopNode (ids : List Id) (c : NodeId)
      (hids : (∃ id, .stopNode (id :: ids) c ∈ s.stack) ∨ ∃ (n : NodeId)
        (nd : NodeData), s.ex.nodes[n]? = some nd ∧ ids.toFinset = nd.tasks) : Pushed s s' (.stopNode ids c)
  | sims (cb : Callback) (len : ℕ) (idx : List ℕ) (c : NodeId) : Pushed s s' (.sims cb len idx c)
  | stopAll (nodes : List NodeId) (hf : s'.ex.finalStopped = true ∨ ∃ nodes', .stopAll nodes' ∈ s.stack) :
      Pushed s s' (.stopAll nodes)

/-- A frame on the stack was there before, or the step has put it there. -/
theorem Next.mem_stack (h : Next s l s') {f : Frame V} (hf : f ∈ s'.stack) : f ∈ s.stack ∨ Pushed s s' f := by
  have hpop : ∀ {g : Frame V} {rest : List (Frame V)}, s.stack = g :: rest → f ∈ rest → f ∈ s.stack ∨
      Pushed s s' f :=
    fun hk h => Or.inl (by rw [hk]; exact List.mem_cons_of_mem _ h)
  -- the new top, or what was there
  have hone : ∀ {x : Frame V} {rest : List (Frame V)}, f ∈ x :: rest → (Pushed s s' x) →
      (f ∈ rest → f ∈ s.stack ∨ Pushed s s' f) → f ∈ s.stack ∨ Pushed s s' f := by
    intro x rest hf hx hr
    rcases List.mem_cons.mp hf with rfl | hf
    · exact Or.inr hx
    · exact hr hf
  cases h with
  | abort | start | createNode => exact hone hf (by constructor) Or.inl
  | stopSimulation hu hc => exact hone hf (.stopAll _ (Or.inl rfl)) Or.inl
  | stop node order nd hu hc hn hrun hnd ho => exact hone hf (.stopNode order _ (Or.inr ⟨node, nd, hn, ho⟩)) Or.inl
  | withSimulator ty i sim hu hc hs => exact hone hf (.withSim i sim hs) Or.inl
  | doneInit r rest id hk hc hrun hid hlt => exact hone hf .loop (hpop hk)
  | rootReady v caller rest id hk hc hr hroot hret =>
    exact hone hf (.stopAll _ (Or.inl rfl)) fun hf => hone hf (.rootStop v caller) (hpop hk)
  | pollDropped l caller rest id r e hk hc hr hd he ha hr' hf' =>
    rcases hk with ⟨hk, -⟩ | ⟨v, order, hk, -⟩ <;> exact hone hf (.discard id true caller) (hpop hk)
  | doneWaker r rest hk | doneDropSim r rest hk | stopAllDone order rest hk | wakeDone order rest hk hs
  | pollKept caller rest id hk hc hr hl | doneDiscard r id post caller rest hk
  | simsDone order cb len caller rest hk hc hlen => exact hpop hk hf
  | putBack r i sim rest hk hc hs => rcases hk with hk | hk <;> exact hpop hk hf
  | exhausted order rest hk hc hq hp => exact hone hf .destroy (hpop hk)
  | advance order rest loc next time hk hc hq hp ht => exact hone hf .waking fun hf => Or.inl (hk ▸ hf)
  | poll order rest id q hk hc hf' hq hs hr => exact hone hf (.poll _ hf') fun hf => Or.inl (hk ▸ hf)
  | wakeCustom order rest loc t n q hk hp hs => exact hone hf .waker fun hf => Or.inl (hk ▸ hf)
  | stopNext order id ids caller rest e hk hc hl =>
    exact hone hf (.stopNode ids caller (Or.inl ⟨id, by rw [hk]; simp⟩)) (hpop hk)
  | stopDrop order id ids caller rest hk hc hl hp =>
    exact hone hf (.discard id false _)
      fun hf => hone hf (.stopNode ids caller (Or.inl ⟨id, by rw [hk]; simp⟩)) (hpop hk)
  | stopSims order caller rest hk hc => exact hone hf (.sims _ _ _ caller) (hpop hk)
  | simsNext order cb len i idx caller rest sim hk hc hs =>
    exact hone hf (.callback i sim hs) fun hf => hone hf (.sims cb len idx caller) (hpop hk)
  | stopAllRun order node nodes rest nd hk hc hn hrun hnd ho =>
    exact hone hf (.stopNode order _ (Or.inr ⟨node, nd, hn, ho⟩))
      fun hf => hone hf (.stopAll nodes (Or.inr ⟨_, by rw [hk]; exact List.mem_cons_self⟩)) (hpop hk)
  | stopAllSkip order node nodes rest nd hk hc hn hrun =>
    exact hone hf (.stopAll nodes (Or.inr ⟨_, by rw [hk]; exact List.mem_cons_self⟩)) (hpop hk)
  | destroy order rest hk hc hq =>
    exact hone hf (.stopAll _ (Or.inl rfl)) fun hf => hone hf (.dropSims (by rw [hk]; simp) rfl rfl) (hpop hk)
  | dropSim order time rest sim hk hc hs => exact hone hf .dropSim fun hf => Or.inl (hk ▸ hf)
  | taken order time rest hk hc hs => exact hone hf (.finished time (by rw [hk]; simp) rfl) (hpop hk)
  | _ => exact Or.inl hf

/-- The stack is never empty. -/
theorem Base.stack_ne (hB : s.Base) : ∃ f rest, s.stack = f :: rest := by
  have hnil : ∀ {c : CxCell} {r : Bool}, ¬ Shape c r ([] : List (Frame V)) := by
    rintro c r (h | _)
    cases h
  cases hk : s.stack with
  | nil => exact absurd (hk ▸ hB.shape) hnil
  | cons f rest => exact ⟨f, rest, rfl⟩

/-- Inside a call: the frames `base` that the call was made from are there, below at least one frame. -/
def Inside (base : List (Frame V)) (s : SimCx V Q) : Prop := base.length < s.stack.length

/-- A run with every step inside the call that was made from `base`. -/
abbrev Within (base : List (Frame V)) (s : SimCx V Q) (ls : List (Label V)) : Prop :=
  Machine.Along step (fun m _ => m.Inside base) s ls

/-- The callee is `g`, a continuation of `f`, with `n` current when it is on top. -/
def Callee (base : List (Frame V)) (n : NodeId) (s : SimCx V Q) (top : List (Frame V)) (g : Frame V) : Prop :=
  s.stack = top ++ g :: base ∧ nodeUnder s.currentNode top = n

/-- A step inside a call leaves the callee in place, with the same node, or lets it continue, or returns from
it. -/
theorem Next.callee (h : Next s l s') {base top : List (Frame V)} {n : NodeId} {g : Frame V}
    (hc : s.Callee base n top g) :
    (s'.stack = base ∧ s'.currentNode = g.below n) ∨ ∃ top' g', s'.Callee base n top' g' ∧ g.Cont g' := by
  obtain ⟨hk, hn⟩ := hc
  cases top with
  | nil =>
    rw [nodeUnder_nil] at hn
    subst hn
    rcases h.top hk with ⟨h1, h2⟩ | ⟨gs, g', h1, h2, h3⟩
    · exact Or.inl ⟨h1, h2⟩
    · exact Or.inr ⟨gs, g', ⟨h1, h3⟩, h2⟩
  | cons t top =>
    rcases h.top hk with ⟨h1, h2⟩ | ⟨gs, t', h1, h2, h3⟩
    · exact Or.inr ⟨top, g, ⟨h1, by rw [h2]; exact hn⟩, .refl g⟩
    · refine Or.inr ⟨gs ++ t' :: top, g, ⟨by simp [h1], ?_⟩, .refl g⟩
      rw [nodeUnder_append, h3, nodeUnder_cons, h2.below]
      exact hn

/-- **Returning from a call**: in a run inside the call the callee keeps its node; when the run has left the
call, the stack is `base` again, and the current node is the one that the frame of the call goes back to. -/
theorem Within.callee {base : List (Frame V)} {ls : List (Label V)} {f : Frame V} {m : SimCx V Q} (hB : s.Base)
    (hk : s.stack = f :: base) (hw : Within base s ls) (hr : Machine.run step s ls = .ok m) :
    (m.stack = base ∧ m.currentNode = f.below s.currentNode) ∨
    ∃ top g, m.Callee base s.currentNode top g ∧ g.below s.currentNode = f.below s.currentNode := by
  have key := hw.inv (I := fun m => m.Base ∧ ((m.stack = base ∧ m.currentNode = f.below s.currentNode) ∨
    ∃ top g, m.Callee base s.currentNode top g ∧ g.below s.currentNode = f.below s.currentNode)) ?_ hr
    ⟨hB, Or.inr ⟨[], f, ⟨hk, rfl⟩, rfl⟩⟩
  · exact key.2
  · rintro m l m' ⟨hmB, hm⟩ hin hst
    have hnext := step_next hmB hst
    refine ⟨hnext.base hmB, ?_⟩
    rcases hm with ⟨h1, -⟩ | ⟨top, g, hcal, hg⟩
    · rw [Inside, h1] at hin
      exact absurd hin (lt_irrefl _)
    · rcases hnext.callee hcal with ⟨h1, h2⟩ | ⟨top', g', hcal', hcont⟩
      · exact Or.inl ⟨h1, h2.trans hg⟩
      · exact Or.inr ⟨top', g', hcal', (hcont.below _).trans hg⟩

theorem Within.returns {base : List (Frame V)} {ls : List (Label V)} {f : Frame V} {m : SimCx V Q} (hB : s.Base)
    (hk : s.stack = f :: base) (hw : Within base s ls) (hr : Machine.run step s ls = .ok m)
    (hm : ¬ m.Inside base) : m.stack = base ∧ m.currentNode = f.below s.currentNode := by
  rcases hw.callee hB hk hr with h | ⟨top, g, ⟨h1, -⟩, -⟩
  · exact h
  · exact absurd (by rw [Inside, h1]; simp; omega) hm

end SimCx

end Refault
