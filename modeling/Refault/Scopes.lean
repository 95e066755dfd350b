import Refault.Calls
import Refault.History

/-!
# Refault.Scopes — the current node

Every poll, every destructor of a future and every simulator callback runs with the node current that it
belongs to, and every call gives its caller the current node back.
-/

namespace Refault

namespace Exec

variable {V : Type}

/-- A task is on the node that it was spawned on. -/
def Recorded (e : Exec V) : Prop := ∀ id n, .spawn id n ∈ e.log → e.On id n

theorem Act.recorded {e e' : Exec V} (h : Act e e') (hI : e.Inv) (hR : e.Recorded) : e'.Recorded := by
  intro id n hm
  have key : .spawn id n ∈ e.log → e'.On id n := fun hm => h.on hI (hR id n hm)
  cases h with
  | spawn node j hrun hid hlt =>
    have hm' : .spawn id n ∈ (e.log ++ [.spawn j node]) ++ [Obs.wake j] := hm
    simp only [List.append_assoc, List.mem_append, List.mem_cons, Obs.spawn.injEq, List.not_mem_nil, or_false,
      reduceCtorEq] at hm'
    rcases hm' with hm' | ⟨rfl, rfl⟩
    · exact key hm'
    · simp [On, node_insertTask]
  | abortPolled j hs hp => exact key (by simpa using hm)
  | abort j hs hp => exact key (by simpa [dropUnsent] using hm)
  | poll j q hq hs hr hf => exact key (by simpa [takeHead] using hm)
  | clear j q st hq hs hr hf => exact key hm
  | pendingAborted j hr hs => exact key (by simpa [dropUnsent] using hm)
  | ready j v hr hs => exact key (by simpa [sent] using hm)
  | readyQueued j v hr hs => exact key (by simpa [sent] using hm)
  | joined j r hr => exact key (by simpa [closeHandle] using hm)
  | _ => exact key (by simpa [setRunLevel] using hm)

/-- Only the act of polling begins a poll. -/
theorem Act.polls {e e' : Exec V} (h : Act e e') (id : Id) :
    polls id e'.log = polls id e.log ∨ e.running = none ∧ e.state id = .ready ∧ e'.polling = some id := by
  cases h with
  | poll j q hq hs hr hf =>
    by_cases hj : j = id
    · exact Or.inr ⟨hr, hj ▸ hs, by simp [polling, takeHead, hj]⟩
    · exact Or.inl (by simp [takeHead, Refault.polls, hj])
  | _ => exact Or.inl (by simp [Refault.polls, insertTask, dropUnsent, clearHead, sent, setRunLevel, closeHandle])

theorem Quiet.drops {e e' : Exec V} (h : Quiet e e') (id : Id) : drops id e'.log = drops id e.log := by
  cases h <;> simp [Obs.dropOf, closeHandle]

theorem PollEnd.drops {e e' : Exec V} {id j : Id} (h : PollEnd e e' id) (hj : j ≠ id) :
    drops j e'.log = drops j e.log := by
  cases h with
  | ready v hl hc hd => simp [hl, Obs.dropOf, Ne.symm hj]
  | aborted hs hl hc hd => simp [hl, Obs.dropOf, Ne.symm hj]
  | pending hs hl ht => simp [hl, Obs.dropOf]

end Exec

namespace SimCx

variable {V Q : Type} [KeyedQueue Q Loc Instant] {b : SimBuilder} {s s' : SimCx V Q} {l : Label V}

theorem Reachable.recorded (hr : Reachable b s) : s.ex.Recorded :=
  hr.exec_invariant (I := Exec.Recorded) (fun id n h => by cases h) fun _ _ hI hR h => h.recorded hI hR

/-- A poll begins at the loop and puts its frame on top. -/
theorem Next.poll_frame (h : Next s l s') (hB : s.Base) {id : Id} (hne : polls id s'.ex.log ≠ polls id s.ex.log) :
    ((∃ rest, s.stack = .loop :: rest) ∧ s.ex.state id = .ready) ∧
      (∃ caller rest, s'.stack = .poll caller :: rest) ∧ s'.ex.polling = some id := by
  rcases h.act hB with he | he
  · rw [he] at hne
    exact absurd rfl hne
  · rcases he.polls id with h0 | ⟨hr, hs, hp⟩
    · exact absurd h0 hne
    · suffices hk : (∃ rest, s.stack = .loop :: rest) ∧ ∃ caller rest, s'.stack = .poll caller :: rest from
        ⟨⟨hk.1, hs⟩, hk.2, hp⟩
      -- every other step leaves no task being polled, as there was none
      have key : s'.ex.running ≠ s.ex.running := fun h1 => by
        rw [Exec.polling, h1, hr] at hp
        cases hp
      cases h with
      | poll order rest id' q hk hc hf hq hs hr' => exact ⟨⟨_, hk⟩, _, _, rfl⟩
      | exec op e hu hq => exact absurd hq.running key
      | abort id' hu hc hl hp' => exact absurd (by simp [Exec.dropUnsent]) key
      | stopDrop order id' ids caller rest hk hc hl hp' => exact absurd (by simp [Exec.dropUnsent]) key
      | stopNext order id' ids caller rest e hk hc hl =>
        rcases hl with ⟨-, rfl⟩ | ⟨-, -, rfl⟩ <;> exact absurd (by simp) key
      | wakeTask order rest loc t id' q e hk hp' hs he' => exact absurd (Exec.wakeByRef_quiet he').running key
      | pollKept caller rest id' hk hc hr' hl => rw [hr] at hr'; cases hr'
      | pollDropped l caller rest id' r e hk hc hr' hd he' ha hr'' hf => rw [hr] at hr'; cases hr'
      | _ => exact absurd rfl key

/-- A future that is dropped has its destructor on top. -/
theorem Next.drop_frame (h : Next s l s') {id : Id} (hne : drops id s'.ex.log ≠ drops id s.ex.log) :
    ∃ post caller rest, s'.stack = .discard id post caller :: rest := by
  cases h with
  | exec op e hu hq => exact absurd (hq.drops id) hne
  | wakeTask order rest loc t id' q e hk hp' hs he' => exact absurd ((Exec.wakeByRef_quiet he').drops id) hne
  | abort id' hu hc hl hp' =>
    by_cases hj : id = id'
    · subst hj; exact ⟨_, _, _, rfl⟩
    · exact absurd (by simp [Exec.dropUnsent, Obs.dropOf, Ne.symm hj]) hne
  | stopDrop order id' ids caller rest hk hc hl hp' =>
    by_cases hj : id = id'
    · subst hj; exact ⟨_, _, _, rfl⟩
    · exact absurd (by simp [Exec.dropUnsent, Obs.dropOf, Ne.symm hj]) hne
  | stopNext order id' ids caller rest e hk hc hl =>
    rcases hl with ⟨-, rfl⟩ | ⟨-, -, rfl⟩ <;> exact absurd (by simp [Obs.dropOf]) hne
  | pollDropped l caller rest id' r e hk hc hr' hd he' ha hr'' hf =>
    by_cases hj : id = id'
    · subst hj; exact ⟨_, _, _, rfl⟩
    · rcases ha.pollEnd (Exec.polling_of_running hr') with h0 | h0
      · rw [Exec.polling, hr''] at h0
        cases h0
      · exact absurd (h0.drops hj) hne
  | _ => exact absurd (by simp [Obs.dropOf, Exec.insertTask, Exec.clearHead, Exec.takeHead, Exec.setRunLevel]) hne

/-- A call either puts one frame on top, which goes back to the current node, or leaves the stack and the node
alone. -/
theorem Next.call (h : Next s l s') {op : Op V} (hl : l = .user op) (hop : ∀ r, op ≠ .done r) :
    (s'.stack = s.stack ∧ s'.currentNode = s.currentNode) ∨
    ∃ f, s'.stack = f :: s.stack ∧ f.below s'.currentNode = s.currentNode := by
  cases h with
  | abort id hu hc hl hp => exact Or.inr ⟨_, rfl, rfl⟩
  | stop node order nd hu hc hn hrun hnd ho => exact Or.inr ⟨_, rfl, rfl⟩
  | start node hu hc hrun => exact Or.inr ⟨_, rfl, rfl⟩
  | createNode hu hc hf => exact Or.inr ⟨_, rfl, rfl⟩
  | stopSimulation hu hc => exact Or.inr ⟨_, rfl, rfl⟩
  | withSimulator ty i sim hu hc hs => exact Or.inr ⟨_, rfl, rfl⟩
  | pollDropped l caller rest id r e hk hc hr hd he ha hr' hf =>
    rcases hk with ⟨-, rfl, -⟩ | ⟨v, order, -, -, rfl⟩
    · cases hl; exact absurd rfl (hop r)
    · cases hl
  | skip | exec | spawn | newSleep | pollSleep | dropSleep | addSimulator => exact Or.inl ⟨rfl, rfl⟩
  | doneInit | doneWaker | rootReady | pollKept | doneDiscard | putBack | doneDropSim =>
    cases hl
    exact absurd rfl (hop _)
  | _ => cases hl

/-- With `l` a stop of `n` takes effect. -/
inductive Stops (s : SimCx V Q) : Label V → NodeId → Prop
  | user (n : NodeId) (order : List Id) (hrun : s.ex.runLevel n = some .running) :
      Stops s (.user (.stop n order)) n
  | final (n : NodeId) (nodes : List NodeId) (rest : List (Frame V)) (order : List Id)
      (hk : s.stack = .stopAll (n :: nodes) :: rest) (hrun : s.ex.runLevel n = some .running) :
        Stops s (.run order) n

/-- With `l` a stop, a start or the creation of `n` begins. -/
inductive Begins (s : SimCx V Q) : Label V → NodeId → Prop
  | stop (l : Label V) (n : NodeId) (h : s.Stops l n) : Begins s l n
  | start (n : NodeId) (hrun : s.ex.runLevel n = some .stopped) : Begins s (.user (.start n)) n
  | create : Begins s (.user .createNode) s.ex.nodes.length

theorem Stops.spec {n : NodeId} (hs : s.Stops l n) (h : s.step l = .ok s') :
    ∃ nd order level base, s.ex.nodes[n]? = some nd ∧ order.toFinset = nd.tasks ∧ level ≠ .running ∧
      s'.ex = (s.ex.setRunLevel n level).note (.stop n) ∧ s'.currentNode = n ∧
      s'.stack = .stopNode order s.currentNode :: base := by
  have key : ∀ {s : SimCx V Q} {isFinal : Bool} {order : List Id}, s.ex.runLevel n = some .running →
      s.stopNode n isFinal order = .ok s' →
      ∃ nd order level base, s.ex.nodes[n]? = some nd ∧ order.toFinset = nd.tasks ∧ level ≠ .running ∧
        s'.ex = (s.ex.setRunLevel n level).note (.stop n) ∧ s'.currentNode = n ∧
        s'.stack = .stopNode order s.currentNode :: base := by
    intro s isFinal order hrun h
    obtain ⟨-, nd, hn, ⟨-, -, ho, rfl⟩ | ⟨hne, -⟩⟩ := stopNode_ok h
    · exact ⟨nd, order, _, _, hn, ho, by cases isFinal <;> decide, rfl, rfl, rfl⟩
    · simp [Exec.runLevel, hn, hne] at hrun
  cases hs with
  | user n order hrun =>
    simp only [step] at h
    split at h
    · cases h
    · split_ifs at h
      exact key hrun h
  | final n nodes rest order hk hrun =>
    simp only [step, runtime, hk] at h
    exact key (s := { s with stack := .stopAll nodes :: rest }) hrun h

/-- It runs on its node, in a frame of its own that goes back to the current node. -/
theorem Begins.scope {n : NodeId} (hb : s.Begins l n) (h : s.step l = .ok s') :
    s'.currentNode = n ∧ ∃ f base, s'.stack = f :: base ∧ f.nests = true ∧ f.below n = s.currentNode := by
  cases hb with
  | stop l n hs =>
    obtain ⟨-, order, -, base, -, -, -, -, hcur, hk⟩ := hs.spec h
    exact ⟨hcur, _, base, hk, rfl, rfl⟩
  | start n hrun =>
    simp only [step] at h
    split at h
    · cases h
    · split_ifs at h
      obtain ⟨-, h⟩ := borrow_bind.mp h
      rw [hrun] at h
      cases h
      exact ⟨rfl, _, _, rfl, rfl, rfl⟩
  | create =>
    simp only [step] at h
    split at h
    · cases h
    · split_ifs at h
      obtain ⟨-, h⟩ := borrow_bind.mp h
      obtain ⟨⟨id, e⟩, he, h⟩ := call_bind.mp h
      unfold Exec.pushNewNode at he
      split_ifs at he
      cases he
      cases h
      exact ⟨rfl, _, _, rfl, rfl, rfl⟩

/-- **Every task runs in its own node.**  Along every run: while a task is polled and while its future is
dropped the current node is the one the task was spawned on, and every poll and every drop is of this kind;
while a simulator is called for the stop, the start or the creation of a node, that node is current; and when
a call has returned, or the loop has the control again, the current node is what it was for the caller. -/
theorem runs_in_own_node (hr : Reachable b s) :
    (∀ id n, .spawn id n ∈ s.ex.log →
      (∀ caller rest, s.stack = .poll caller :: rest → s.ex.polling = some id → s.currentNode = n) ∧
      (∀ post caller rest, s.stack = .discard id post caller :: rest → s.currentNode = n)) ∧
    (∀ l s', s.step l = .ok s' → ∀ id,
      (polls id s'.ex.log ≠ polls id s.ex.log →
        (∃ caller rest, s'.stack = .poll caller :: rest) ∧ s'.ex.polling = some id) ∧
      (drops id s'.ex.log ≠ drops id s.ex.log → ∃ post caller rest, s'.stack = .discard id post caller :: rest)) ∧
    (∀ l n s' f base ls m, s.Begins l n → s.step l = .ok s' → s'.stack = f :: base → Within base s' ls →
      Machine.run step s' ls = .ok m → (∀ i sim g, m.stack = .callback i sim :: g :: base → m.currentNode = n) ∧
        (¬ m.Inside base → m.stack = base ∧ m.currentNode = s.currentNode)) ∧
    (∀ op s' ls m, (∀ r, op ≠ .done r) → s.step (.user op) = .ok s' → Within s.stack s' ls →
      Machine.run step s' ls = .ok m → ¬ m.Inside s.stack → m.stack = s.stack ∧ m.currentNode = s.currentNode) ∧
    (∀ rest, s.stack = .loop :: rest → s.currentNode = initNode) := by
  have hB := hr.base
  refine ⟨fun id n hid => ⟨fun caller rest hk hp => ?_, fun post caller rest hk => ?_⟩,
    fun l s' h id => ⟨fun hp => ((step_next hB h).poll_frame hB hp).2, (step_next hB h).drop_frame⟩, ?_, ?_,
      fun rest hk => ?_⟩
  · have hF := hB.frames
    rw [hk] at hF
    rw [← (hF.1 id hp).2, (hr.recorded id n hid).2]
  · have hF := hB.frames
    rw [hk] at hF
    rw [← hF.1.2, (hr.recorded id n hid).2]
  · intro l n s' f base ls m hb h hk hw hrun
    have hB' := step_base hB h
    obtain ⟨hcur, f', base', hk', -, hf⟩ := hb.scope h
    rw [hk] at hk'
    cases hk'
    refine ⟨fun i sim g hm => ?_, fun hm => ?_⟩
    · rcases hw.callee hB' hk hrun with ⟨h1, -⟩ | ⟨top, g', ⟨h1, h2⟩, -⟩
      · rw [h1] at hm
        exact absurd (congrArg List.length hm) (by simp; omega)
      · -- the callback's frame does not change the node
        rw [hm] at h1
        have hlen : top.length = 1 := by
          have := congrArg List.length h1
          simp at this
          omega
        obtain ⟨t, rfl⟩ := List.length_eq_one_iff.mp hlen
        obtain rfl : Frame.callback i sim = t := (List.cons.inj h1).1
        rw [← hcur, ← h2]
        rfl
    · have := hw.returns hB' hk hrun hm
      rw [hcur] at this
      exact ⟨this.1, this.2.trans hf⟩
  · intro op s' ls m hop h hw hrun hm
    rcases (step_next hB h).call rfl hop with ⟨h1, h2⟩ | ⟨f, h1, h2⟩
    · cases ls with
      | nil => cases hrun; exact ⟨h1, h2⟩
      | cons l ls =>
        have hin : s'.Inside s.stack := hw.1
        rw [Inside, h1] at hin
        exact absurd hin (lt_irrefl _)
    · have := hw.returns (step_base hB h) h1 hrun hm
      exact ⟨this.1, this.2.trans h2⟩
  · have hS := hB.shape
    have hF := hB.frames
    rw [hk] at hS hF
    obtain ⟨-, -, rfl⟩ := hS.loop_eq
    exact hF.2

/-- The root task creates a node, spawns a task there and aborts it. -/
def otherNodeRun : List (Label ℕ) :=
  [.user (.done none), .run [], .user .createNode, .run [], .user (.spawn 1), .user (.abort 2)]

/-- The destructor runs on the other node. -/
theorem runs_in_own_node_other : ∃ s : ArraySim, Machine.run step (install epoch) otherNodeRun = .ok s ∧
    s.ex.log.contains (.drop 2 false) = true ∧ s.currentNode = 1 := by
  obtain ⟨s, hs, hq⟩ : ∃ s : ArraySim, Machine.run step (install epoch) otherNodeRun = .ok s ∧
      (s.ex.log.contains (.spawn 2 1), s.ex.log.contains (.drop 2 false), s.stack) =
        (true, true, [.discard 2 false 0, .poll 0, .loop]) := Machine.exists_of_run rfl
  obtain ⟨h1, h2, h3⟩ : _ ∧ _ ∧ _ := by simpa only [Prod.mk.injEq] using hq
  exact ⟨s, hs, h2, ((runs_in_own_node ⟨_, hs⟩).1 2 1 (by simpa using h1)).2 _ _ _ h3⟩

end SimCx

end Refault
