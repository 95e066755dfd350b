import Refault.Stack
import Refault.SleepInv

/-!
# Refault.Step — what one step of the simulation can do

`Next s l s'` has one constructor for each way a step succeeds, with its guards and the whole next state.
`Base` is the invariant that the rest of the development stands on: the executor's and the scheduler's own,
the shape of the stack, the nodes of its frames, and the tasks behind registered wakers.  `step_next` inverts
`step` under `Base`, `Next.base` says that `Base` is kept; both hold of every reachable state.
-/

namespace Refault

namespace SimCx

variable {V Q : Type}

open Exec (Act)

/-! ## Inverting the functions -/

section Invert

theorem borrow_bind {A : Type} {s : SimCx V Q} {f : Unit → Except Halt A} {a : A} :
    (s.borrow >>= f) = .ok a ↔ s.cell = .free ∧ f () = .ok a := by
  unfold borrow
  cases s.cell with
  | free => exact ⟨fun h => ⟨rfl, h⟩, fun h => h.2⟩
  | borrowed =>
    refine ⟨fun h => ?_, fun h => ?_⟩
    · cases h
    · cases h.1
  | taken =>
    refine ⟨fun h => ?_, fun h => ?_⟩
    · cases h
    · cases h.1

theorem call_bind {A B : Type} {x : Except Panic B} {f : B → Except Halt A} {a : A} :
    (call x >>= f) = .ok a ↔ ∃ b, x = .ok b ∧ f b = .ok a := by
  unfold call
  cases x with
  | ok b =>
    refine ⟨fun h => ⟨b, rfl, h⟩, ?_⟩
    rintro ⟨b', h, h'⟩
    cases h
    exact h'
  | error p =>
    refine ⟨fun h => ?_, ?_⟩
    · cases h
    · rintro ⟨b', h, -⟩
      cases h

variable {s s' : SimCx V Q}

theorem spawnTaskOnNode_ok {node : NodeId} {id : Id} (hI : s.ex.Inv) (h : s.spawnTaskOnNode node = .ok (id, s')) :
    s.cell = .free ∧ s.ex.runLevel node = some .running ∧ id = s.ex.preNextGlobalId + 1 ∧ id < 2 ^ 64 ∧
      s' = { s with
        ex := (((s.ex.insertTask node id).note (.wake id)).setState id .ready).pushReady id
        events := s.events ++ [.taskSpawned] } := by
  obtain ⟨hc, h⟩ := borrow_bind.mp h
  obtain ⟨⟨id', e⟩, he, h⟩ := call_bind.mp h
  cases h
  obtain ⟨hrun, hid, hlt, -⟩ := Exec.spawn_eq hI he
  obtain ⟨-, rfl, -⟩ := Exec.spawn_act hI he
  exact ⟨hc, hrun, hid, hlt, rfl⟩

theorem stopNode_ok {node : NodeId} {isFinal : Bool} {order : List Id}
    (h : s.stopNode node isFinal order = .ok s') : s.cell = .free ∧ ∃ nd, s.ex.nodes[node]? = some nd ∧
      (nd.runLevel = .running ∧ order.Nodup ∧ order.toFinset = nd.tasks ∧ s' = { s with
          ex := (s.ex.setRunLevel node (if isFinal then .finalStopped else .stopped)).note (.stop node)
          currentNode := node
          stack := .stopNode order s.currentNode :: s.stack } ∨
        nd.runLevel ≠ .running ∧
          s' = if isFinal then { s with ex := s.ex.setRunLevel node .finalStopped } else s) := by
  obtain ⟨hc, h⟩ := borrow_bind.mp h
  refine ⟨hc, ?_⟩
  cases hn : s.ex.nodes[node]? with
  | none => rw [hn] at h; cases h
  | some nd =>
    rw [hn] at h
    refine ⟨nd, rfl, ?_⟩
    simp only at h
    cases hrl : nd.runLevel with
    | running =>
      rw [hrl] at h
      simp only at h
      by_cases ho : order.Nodup ∧ order.toFinset = nd.tasks
      · rw [if_pos ho] at h
        cases h
        exact Or.inl ⟨rfl, ho.1, ho.2, rfl⟩
      · rw [if_neg ho] at h
        cases h
    | stopped | finalStopped =>
      rw [hrl] at h
      cases h
      exact Or.inr ⟨by decide, rfl⟩

theorem stopSimulation_ok (h : s.stopSimulation = .ok s') : s.cell = .free ∧ s' = { s with
    ex := { s.ex with finalStopped := true }
    stack := .stopAll (List.range s.ex.nodes.length) :: s.stack } := by
  obtain ⟨hc, h⟩ := borrow_bind.mp h
  cases h
  exact ⟨hc, rfl⟩

theorem putBack_ok {i : ℕ} {sim : SimTy} {rest : List (Frame V)} (h : s.putBack i sim rest = .ok s') :
    s.cell = .free ∧ s.simulators[i]? = some none ∧
      s' = { s with simulators := s.simulators.set i (some sim), stack := rest } := by
  obtain ⟨hc, h⟩ := borrow_bind.mp h
  refine ⟨hc, ?_⟩
  split at h
  · cases h
  · cases h
  · cases h
    exact ⟨by assumption, rfl⟩

/-- The end of a poll either puts the future back into its slot or drops it inside `with_cx`. -/
theorem endPoll_ok {r : Option V} {caller : NodeId} {rest : List (Frame V)} (hI : s.ex.Inv)
    (h : s.endPoll r caller rest = .ok s') : s.cell = .free ∧ ∃ id, s.ex.running = some ⟨id, true⟩ ∧
      ((s.ex.state id).live = true ∧ r = none ∧ s' = { s with
          ex := ((s.ex.note (.ret id none)).setEntry id (some ⟨some ⟨id, true⟩⟩)).setRunning none
          currentNode := caller
          stack := rest } ∨
        (s.ex.state id = .abortedReady ∨ r.isSome) ∧ ∃ e, (∃ t, s.ex.pollEnd ⟨id, true⟩ r = .ok (some t, e)) ∧
          Act s.ex e ∧ e.running = none ∧ e.finalStopped = s.ex.finalStopped ∧
          s' = { s with ex := e, cell := .borrowed, stack := .discard id true caller :: rest }) := by
  obtain ⟨hc, h⟩ := borrow_bind.mp h
  refine ⟨hc, ?_⟩
  cases hr : s.ex.running with
  | none => rw [hr] at h; cases h
  | some t =>
    obtain ⟨id, snd⟩ := t
    obtain rfl : snd = true := (hI.running _ hr).1
    refine ⟨id, rfl, ?_⟩
    rw [hr] at h
    obtain ⟨⟨o, e⟩, he, h⟩ := call_bind.mp h
    cases r with
    | none =>
      rcases Exec.pollEnd_pending hI hr with ⟨hl, hp⟩ | ⟨hs, hp⟩ <;> rw [hp] at he <;> cases he <;> cases h
      · exact Or.inl ⟨hl, rfl, rfl⟩
      · exact Or.inr ⟨Or.inl hs, _, ⟨_, hp⟩, .pendingAborted id hr hs, rfl, rfl, rfl⟩
    | some v =>
      rcases Exec.pollEnd_ready hI v hr with ⟨hs, hp⟩ | ⟨hs, hp⟩ <;> rw [hp] at he <;> cases he <;> cases h
      · exact Or.inr ⟨Or.inr rfl, _, ⟨_, hp⟩, .ready id v hr hs, rfl, rfl, rfl⟩
      · exact Or.inr ⟨Or.inr rfl, _, ⟨_, hp⟩, .readyQueued id v hr hs, rfl, rfl, rfl⟩

end Invert

/-! ## The invariant and the steps -/

variable [KeyedQueue Q Loc Instant]

structure Base (s : SimCx V Q) : Prop where
  exec : s.ex.Inv
  sleep : s.ts.Inv
  settled : Frame.waking ∉ s.stack → s.ts.Settled
  wakers : ∀ loc d id, s.ts.sleeps loc = some ⟨d, .waiting (.task id)⟩ → s.ex.state id ≠ .taskEnd
  shape : Shape s.cell s.ex.running.isSome s.stack
  frames : Scoped s.ex s.currentNode s.stack

/-- User code is on top. -/
def InUser (s : SimCx V Q) : Prop := ∃ f rest, s.stack = f :: rest ∧ f.isUser = true

inductive Next (s : SimCx V Q) : Label V → SimCx V Q → Prop
  -- calls of user code
  | skip (op : Op V) (hu : s.InUser) : Next s (.user op) s
  | exec (op : Op V) (e : Exec V) (hu : s.InUser) (hq : s.ex.Quiet e) : Next s (.user op) { s with ex := e }
  | spawn (node : NodeId) (id : Id) (hu : s.InUser) (hc : s.cell = .free)
      (hrun : s.ex.runLevel node = some .running) (hid : id = s.ex.preNextGlobalId + 1) (hlt : id < 2 ^ 64) :
      Next s (.user (.spawn node)) { s with
        ex := (((s.ex.insertTask node id).note (.wake id)).setState id .ready).pushReady id
        events := s.events ++ [.taskSpawned] }
  | abort (id : Id) (hu : s.InUser) (hc : s.cell = .free) (hl : (s.ex.state id).live = true)
      (hp : s.ex.polling ≠ some id) :
      Next s (.user (.abort id)) { s with
        ex := ((s.ex.note (.abort id)).abortAt id).dropUnsent id false
        currentNode := s.ex.node id
        stack := .discard id false s.currentNode :: s.stack }
  | stop (node : NodeId) (order : List Id) (nd : NodeData) (hu : s.InUser) (hc : s.cell = .free)
      (hn : s.ex.nodes[node]? = some nd) (hrun : nd.runLevel = .running) (hnd : order.Nodup)
      (ho : order.toFinset = nd.tasks) :
      Next s (.user (.stop node order)) { s with
        ex := (s.ex.setRunLevel node .stopped).note (.stop node)
        currentNode := node
        stack := .stopNode order s.currentNode :: s.stack }
  | start (node : NodeId) (hu : s.InUser) (hc : s.cell = .free) (hrun : s.ex.runLevel node = some .stopped) :
      Next s (.user (.start node)) { s with
        ex := s.ex.setRunLevel node .running
        currentNode := node
        stack := .sims .start s.simulators.length
          (List.range s.simulators.length).reverse s.currentNode :: s.stack }
  | createNode (hu : s.InUser) (hc : s.cell = .free) (hf : s.ex.finalStopped = false) :
      Next s (.user .createNode) { s with
        ex := { s.ex with nodes := s.ex.nodes ++ [⟨.running, ∅⟩] }
        events := s.events ++ [.nodeSpawned s.ex.nodes.length]
        currentNode := s.ex.nodes.length
        stack := .sims .create s.simulators.length (List.range s.simulators.length) s.currentNode :: s.stack }
  | stopSimulation (hu : s.InUser) (hc : s.cell = .free) :
      Next s (.user .stopSimulation) { s with
        ex := { s.ex with finalStopped := true }
        stack := .stopAll (List.range s.ex.nodes.length) :: s.stack }
  | newSleep (loc : Loc) (deadline : Instant) (hu : s.InUser) (hs : s.ts.sleeps loc = none) :
      Next s (.user (.newSleep loc deadline)) { s with ts := s.ts.newSleep loc deadline }
  | pollSleep (loc : Loc) (sl : Sleep) (w : Waker) (ts : TimeScheduler Q) (hu : s.InUser)
      (hs : s.ts.sleeps loc = some sl) (hc : ∀ t, sl.state = .init t → s.cell = .free)
      (hw : ∀ id, w = .task id → s.ex.state id ≠ .taskEnd)
      (h : s.ts.pollState loc sl.deadline w sl.state = .ok ts) :
        Next s (.user (.pollSleep loc w)) { s with ts := ts }
  | dropSleep (loc : Loc) (hu : s.InUser) (hc : s.cell = .free) (hs : s.ts.sleeps loc ≠ none) :
      Next s (.user (.dropSleep loc)) { s with ts := s.ts.dropSleep loc }
  | addSimulator (ty : SimTy) (hu : s.InUser) (hc : s.cell = .free) (hn : s.ex.nodes.length = 1)
      (hf : s.ex.finalStopped = false) (hb : s.simulatorsByType ty = none) :
      Next s (.user (.addSimulator ty)) { s with
        simulatorsByType := Function.update s.simulatorsByType ty (some s.simulators.length)
        simulators := s.simulators ++ [some ty] }
  | withSimulator (ty : SimTy) (i : ℕ) (sim : SimTy) (hu : s.InUser) (hc : s.cell = .free)
      (hs : s.simulators[i]? = some (some sim)) :
      Next s (.user (.withSimulator ty)) { s with
        simulators := s.simulators.set i none
        stack := .withSim i sim :: s.stack }
  -- user code returns
  | doneInit (r : Option V) (rest : List (Frame V)) (id : Id) (hk : s.stack = .init :: rest) (hc : s.cell = .free)
      (hrun : s.ex.runLevel s.currentNode = some .running) (hid : id = s.ex.preNextGlobalId + 1)
        (hlt : id < 2 ^ 64) :
      Next s (.user (.done r)) { s with
        ex := (((s.ex.insertTask s.currentNode id).note (.wake id)).setState id .ready).pushReady id
        events := s.events ++ [.taskSpawned]
        root := some id
        stack := .loop :: rest }
  | doneWaker (r : Option V) (rest : List (Frame V)) (hk : s.stack = .waker :: rest) :
      Next s (.user (.done r)) { s with stack := rest }
  | rootReady (v : V) (caller : NodeId) (rest : List (Frame V)) (id : Id) (hk : s.stack = .poll caller :: rest)
      (hc : s.cell = .free) (hr : s.ex.running = some ⟨id, true⟩) (hroot : s.root = some id)
        (hret : s.ret = none) :
      Next s (.user (.done (some v))) { s with
        ex := { s.ex.note (.rootReady v) with finalStopped := true }
        ret := some v
        stack := .stopAll (List.range s.ex.nodes.length) :: .rootStop v caller :: rest }
  | pollKept (caller : NodeId) (rest : List (Frame V)) (id : Id) (hk : s.stack = .poll caller :: rest)
      (hc : s.cell = .free) (hr : s.ex.running = some ⟨id, true⟩) (hl : (s.ex.state id).live = true) :
      Next s (.user (.done none)) { s with
        ex := ((s.ex.note (.ret id none)).setEntry id (some ⟨some ⟨id, true⟩⟩)).setRunning none
        currentNode := caller
        stack := rest }
  | pollDropped (l : Label V) (caller : NodeId) (rest : List (Frame V)) (id : Id) (r : Option V) (e : Exec V)
      (hk : s.stack = .poll caller :: rest ∧ l = .user (.done r) ∧ (r.isSome → s.root ≠ some id) ∨
        ∃ v order, s.stack = .rootStop v caller :: rest ∧ r = some v ∧ l = .run order)
      (hc : s.cell = .free) (hr : s.ex.running = some ⟨id, true⟩)
      (hd : s.ex.state id = .abortedReady ∨ r.isSome)
      (he : ∃ t, s.ex.pollEnd ⟨id, true⟩ r = .ok (some t, e)) (ha : Act s.ex e) (hr' : e.running = none)
      (hf : e.finalStopped = s.ex.finalStopped) :
      Next s l { s with ex := e, cell := .borrowed, stack := .discard id true caller :: rest }
  | doneDiscard (r : Option V) (id : Id) (post : Bool) (caller : NodeId) (rest : List (Frame V))
      (hk : s.stack = .discard id post caller :: rest) :
      Next s (.user (.done r)) { s with
        cell := if post then .free else s.cell
        currentNode := caller
        stack := rest }
  | putBack (r : Option V) (i : ℕ) (sim : SimTy) (rest : List (Frame V))
      (hk : s.stack = .callback i sim :: rest ∨ s.stack = .withSim i sim :: rest) (hc : s.cell = .free)
      (hs : s.simulators[i]? = some none) :
      Next s (.user (.done r)) { s with simulators := s.simulators.set i (some sim), stack := rest }
  | doneDropSim (r : Option V) (rest : List (Frame V)) (hk : s.stack = .dropSim :: rest) :
      Next s (.user (.done r)) { s with stack := rest }
  -- the runtime
  | exhausted (order : List Id) (rest : List (Frame V)) (hk : s.stack = .loop :: rest) (hc : s.cell = .free)
      (hq : s.ex.finalStopped = true ∨ s.ex.readyQueue = []) (hp : KeyedQueue.peek s.ts.upcomingEvents = none) :
      Next s (.run order) { s with ex := s.ex.note .exhausted, stack := .destroy :: rest }
  | advance (order : List Id) (rest : List (Frame V)) (loc : Loc) (next : Instant) (time : Duration)
      (hk : s.stack = .loop :: rest) (hc : s.cell = .free)
      (hq : s.ex.finalStopped = true ∨ s.ex.readyQueue = [])
      (hp : KeyedQueue.peek s.ts.upcomingEvents = some (loc, next))
      (ht : s.time.checkedAdd (next.durationSince s.ts.now) = some time) :
      Next s (.run order) { s with
        ex := s.ex.note .exhausted
        events := s.events ++ [.timeAdvanced (next.durationSince s.ts.now)]
        time := time
        ts := s.ts.advanceTo next
        cell := .borrowed
        stack := .waking :: .loop :: rest }
  | clear (order : List Id) (rest : List (Frame V)) (id : Id) (q : List Id) (st : TaskState)
      (hk : s.stack = .loop :: rest) (hc : s.cell = .free) (hf : s.ex.finalStopped = false)
      (hq : s.ex.readyQueue = id :: q)
      (hs : s.ex.state id = .completeReady ∧ st = .complete ∨ s.ex.state id = .abortedReady ∧ st = .aborted) :
      Next s (.run order) { s with ex := s.ex.clearHead id q st }
  | poll (order : List Id) (rest : List (Frame V)) (id : Id) (q : List Id) (hk : s.stack = .loop :: rest)
      (hc : s.cell = .free) (hf : s.ex.finalStopped = false) (hq : s.ex.readyQueue = id :: q)
      (hs : s.ex.state id = .ready) (hr : s.ex.running = none) :
      Next s (.run order) { s with
        ex := s.ex.takeHead id q
        events := s.events ++ [.taskRun id]
        currentNode := s.ex.node id
        stack := .poll s.currentNode :: .loop :: rest }
  | wakeDone (order : List Id) (rest : List (Frame V)) (hk : s.stack = .waking :: rest) (hs : s.ts.Settled) :
      Next s (.run order) { s with cell := .free, stack := rest }
  | wakeTask (order : List Id) (rest : List (Frame V)) (loc : Loc) (t : Instant) (id : Id) (q : Q) (e : Exec V)
      (hk : s.stack = .waking :: rest)
      (hp : KeyedQueue.popIf s.ts.upcomingEvents (fun t => decide (t ≤ s.ts.now)) = some ((loc, t), q))
      (hs : s.ts.sleeps loc = some ⟨t, .waiting (.task id)⟩) (he : s.ex.wakeByRef id = .ok e) :
      Next s (.run order) { s with
        ts := ({ s.ts with upcomingEvents := q }.setState loc t (.done t)).note (.wake loc (.task id))
        ex := e }
  | wakeCustom (order : List Id) (rest : List (Frame V)) (loc : Loc) (t : Instant) (n : ℕ) (q : Q)
      (hk : s.stack = .waking :: rest)
      (hp : KeyedQueue.popIf s.ts.upcomingEvents (fun t => decide (t ≤ s.ts.now)) = some ((loc, t), q))
      (hs : s.ts.sleeps loc = some ⟨t, .waiting (.custom n)⟩) :
      Next s (.run order) { s with
        ts := ({ s.ts with upcomingEvents := q }.setState loc t (.done t)).note (.wake loc (.custom n))
        stack := .waker :: .waking :: rest }
  | stopNext (order : List Id) (id : Id) (ids : List Id) (caller : NodeId) (rest : List (Frame V)) (e : Exec V)
      (hk : s.stack = .stopNode (id :: ids) caller :: rest) (hc : s.cell = .free)
      (hl : (s.ex.state id).live = false ∧ e = s.ex.note (.abort id) ∨
        (s.ex.state id).live = true ∧ s.ex.polling = some id ∧ e = (s.ex.note (.abort id)).abortAt id) :
      Next s (.run order) { s with ex := e, stack := .stopNode ids caller :: rest }
  | stopDrop (order : List Id) (id : Id) (ids : List Id) (caller : NodeId) (rest : List (Frame V))
      (hk : s.stack = .stopNode (id :: ids) caller :: rest) (hc : s.cell = .free)
      (hl : (s.ex.state id).live = true) (hp : s.ex.polling ≠ some id) :
      Next s (.run order) { s with
        ex := ((s.ex.note (.abort id)).abortAt id).dropUnsent id false
        stack := .discard id false s.currentNode :: .stopNode ids caller :: rest }
  | stopSims (order : List Id) (caller : NodeId) (rest : List (Frame V))
      (hk : s.stack = .stopNode [] caller :: rest) (hc : s.cell = .free) :
      Next s (.run order) { s with
        stack := .sims .stop s.simulators.length (List.range s.simulators.length).reverse caller :: rest }
  | simsNext (order : List Id) (cb : Callback) (len i : ℕ) (idx : List ℕ) (caller : NodeId) (rest : List (Frame V))
      (sim : SimTy) (hk : s.stack = .sims cb len (i :: idx) caller :: rest) (hc : s.cell = .free)
      (hs : s.simulators[i]? = some (some sim)) :
      Next s (.run order) { s with
        simulators := s.simulators.set i none
        ex := s.ex.note (.callback sim cb s.currentNode)
        stack := .callback i sim :: .sims cb len idx caller :: rest }
  | simsDone (order : List Id) (cb : Callback) (len : ℕ) (caller : NodeId) (rest : List (Frame V))
      (hk : s.stack = .sims cb len [] caller :: rest) (hc : s.cell = .free) (hlen : s.simulators.length = len) :
      Next s (.run order) { s with currentNode := caller, stack := rest }
  | stopAllRun (order : List Id) (node : NodeId) (nodes : List NodeId) (rest : List (Frame V)) (nd : NodeData)
      (hk : s.stack = .stopAll (node :: nodes) :: rest) (hc : s.cell = .free)
      (hn : s.ex.nodes[node]? = some nd) (hrun : nd.runLevel = .running) (hnd : order.Nodup)
      (ho : order.toFinset = nd.tasks) :
      Next s (.run order) { s with
        ex := (s.ex.setRunLevel node .finalStopped).note (.stop node)
        currentNode := node
        stack := .stopNode order s.currentNode :: .stopAll nodes :: rest }
  | stopAllSkip (order : List Id) (node : NodeId) (nodes : List NodeId) (rest : List (Frame V)) (nd : NodeData)
      (hk : s.stack = .stopAll (node :: nodes) :: rest) (hc : s.cell = .free)
      (hn : s.ex.nodes[node]? = some nd) (hrun : nd.runLevel ≠ .running) :
      Next s (.run order) { s with ex := s.ex.setRunLevel node .finalStopped, stack := .stopAll nodes :: rest }
  | stopAllDone (order : List Id) (rest : List (Frame V)) (hk : s.stack = .stopAll [] :: rest) :
      Next s (.run order) { s with stack := rest }
  | destroy (order : List Id) (rest : List (Frame V)) (hk : s.stack = .destroy :: rest) (hc : s.cell = .free)
      (hq : s.ex.readyQueue = [] ∨ s.ex.finalStopped = true) :
      Next s (.run order) { s with
        ex := { s.ex with finalStopped := true }
        stack := .stopAll (List.range s.ex.nodes.length) :: .dropSims s.time :: rest }
  | dropSim (order : List Id) (time : Duration) (rest : List (Frame V)) (sim : SimTy)
      (hk : s.stack = .dropSims time :: rest) (hc : s.cell = .free)
      (hs : s.simulators.getLast? = some (some sim)) :
      Next s (.run order)
        { s with simulators := s.simulators.dropLast, stack := .dropSim :: .dropSims time :: rest }
  | taken (order : List Id) (time : Duration) (rest : List (Frame V)) (hk : s.stack = .dropSims time :: rest)
      (hc : s.cell = .free) (hs : s.simulators = []) :
      Next s (.run order) { s with cell := .taken, stack := .finished time :: rest }

/-- What a step relies on. -/
structure Sane (s : SimCx V Q) : Prop where
  exec : s.ex.Inv
  sleep : ∀ rest, s.stack = .waking :: rest → s.ts.Inv
  idle : ∀ rest, s.stack = .loop :: rest → s.cell = .free → s.ex.running = none
  polling : ∀ c rest, s.stack = .poll c :: rest → s.cell = .free → s.ex.running.isSome
  known : ∀ ids c rest, s.stack = .stopNode ids c :: rest → ∀ id ∈ ids, s.ex.state id ≠ .taskEnd

omit [KeyedQueue Q Loc Instant] in
theorem Base.sane [KeyedQueue Q Loc Instant] {s : SimCx V Q} (hB : s.Base) : s.Sane where
  exec := hB.exec
  sleep _ _ := hB.sleep
  idle rest hk hc := by
    have hS := hB.shape
    rw [hk, hc] at hS
    simpa using hS.nested.loop_eq.2
  polling c rest hk hc := by
    have hS := hB.shape
    rw [hk, hc] at hS
    exact hS.nested.poll_eq.2
  known ids c rest hk id hid := by
    have hF := hB.frames
    rw [hk] at hF
    exact (hF.1 id hid).1

section Inversion

variable {s s' : SimCx V Q}

theorem idle_ok {order : List Id} {rest : List (Frame V)} (hk : s.stack = .loop :: rest) (hc : s.cell = .free)
    (hq : s.ex.finalStopped = true ∨ s.ex.readyQueue = []) (h : s.idle rest = .ok s') :
    Next s (.run order) s' := by
  unfold idle at h
  cases hp : KeyedQueue.peek s.ts.upcomingEvents with
  | none =>
    rw [hp] at h
    dsimp only at h
    cases h
    exact .exhausted order rest hk hc hq hp
  | some r =>
    obtain ⟨loc, next⟩ := r
    rw [hp] at h
    dsimp only at h
    generalize ht : s.time.checkedAdd (next.durationSince s.ts.now) = o at h
    cases o with
    | none =>
      dsimp only at h
      cases h
    | some time =>
      dsimp only at h
      cases h
      exact .advance order rest loc next time hk hc hq hp ht

/-- A step of the runtime. -/
theorem runtime_next {order : List Id} (hS : s.Sane) (h : s.runtime order = .ok s') : Next s (.run order) s' := by
  unfold runtime at h
  split at h
  · rename_i rest hk
    obtain ⟨hc, h⟩ := borrow_bind.mp h
    have hr : s.ex.running = none := hS.idle rest hk hc
    split_ifs at h with hf
    · exact idle_ok hk hc (Or.inl hf) h
    · split at h
      · rename_i hq
        exact idle_ok hk hc (Or.inr hq) h
      · rename_i id q hq
        obtain ⟨⟨t, e⟩, he, h⟩ := call_bind.mp h
        have hf' : s.ex.finalStopped = false := by simpa using hf
        rcases Exec.popped_spec hS.exec hq hr with ⟨hs, hp⟩ | ⟨st, hs, hp⟩ <;> rw [hp] at he <;> cases he <;>
          cases h
        · have := Next.poll order rest id q hk hc hf' hq hs hr
          simpa [Exec.takeHead] using this
        · exact .clear order rest id q st hk hc hf' hq hs
  · rename_i rest hk
    obtain ⟨⟨w, ts⟩, hw, h⟩ := call_bind.mp h
    rcases TimeScheduler.wakeNext_spec (hS.sleep rest hk) with ⟨hs, hset⟩ | ⟨loc, t, w', q, hp, hs, hw'⟩
    · rw [hs] at hw
      cases hw
      cases h
      exact .wakeDone order rest hk hset
    · rw [hw'] at hw
      cases hw
      cases w' with
      | task id =>
        obtain ⟨e, he, h⟩ := call_bind.mp h
        cases h
        exact .wakeTask order rest loc t id q e hk hp hs he
      | custom n =>
        cases h
        exact .wakeCustom order rest loc t n q hk hp hs
  · rename_i v caller rest hk
    obtain ⟨hc, id, hr, ⟨-, hv, -⟩ | ⟨hd, e, he, ha, hr', hf, rfl⟩⟩ := endPoll_ok hS.exec h
    · cases hv
    · exact .pollDropped _ caller rest id (some v) e (Or.inr ⟨v, order, hk, rfl, rfl⟩) hc hr hd he ha hr' hf
  · rename_i id ids caller rest hk
    obtain ⟨hc, h⟩ := borrow_bind.mp h
    obtain ⟨⟨t, e⟩, he, h⟩ := call_bind.mp h
    have hon : s.ex.state id ≠ .taskEnd := hS.known _ caller rest hk id List.mem_cons_self
    rcases Exec.abort_spec hS.exec hon with ⟨hl, ha⟩ | ⟨hl, hp, ha⟩ | ⟨hl, hp, ha⟩ <;>
      rw [ha] at he <;> cases he <;> cases h
    · exact .stopNext order id ids caller rest _ hk hc (Or.inl ⟨hl, rfl⟩)
    · exact .stopNext order id ids caller rest _ hk hc (Or.inr ⟨hl, hp, rfl⟩)
    · exact .stopDrop order id ids caller rest hk hc hl hp
  · rename_i caller rest hk
    obtain ⟨hc, h⟩ := borrow_bind.mp h
    cases h
    exact .stopSims order caller rest hk hc
  · rename_i cb len i idx caller rest hk
    obtain ⟨hc, h⟩ := borrow_bind.mp h
    split at h
    · cases h
    · cases h
    · rename_i sim hs
      cases h
      exact .simsNext order cb len i idx caller rest sim hk hc hs
  · rename_i cb len caller rest hk
    obtain ⟨hc, h⟩ := borrow_bind.mp h
    split_ifs at h with hlen
    cases h
    exact .simsDone order cb len caller rest hk hc hlen
  · rename_i node nodes rest hk
    obtain ⟨hc, nd, hn, ⟨hrun, hnd, ho, rfl⟩ | ⟨hrun, rfl⟩⟩ := stopNode_ok h
    · exact .stopAllRun order node nodes rest nd hk hc hn hrun hnd ho
    · exact .stopAllSkip order node nodes rest nd hk hc hn hrun
  · rename_i rest hk
    cases h
    exact .stopAllDone order rest hk
  · rename_i rest hk
    unfold destroy at h
    by_cases hcur : s.currentNode = initNode
    · rw [if_neg (not_not.mpr hcur)] at h
      obtain ⟨hc, h⟩ := borrow_bind.mp h
      split_ifs at h with hq
      obtain ⟨-, rfl⟩ := stopSimulation_ok h
      exact .destroy order rest hk hc hq
    · rw [if_pos hcur] at h
      cases h
  · rename_i time rest hk
    obtain ⟨hc, h⟩ := borrow_bind.mp h
    split at h
    · rename_i hs
      cases h
      exact .taken order time rest hk hc (List.getLast?_eq_none_iff.mp hs)
    · cases h
    · rename_i sim hs
      cases h
      exact .dropSim order time rest sim hk hc hs
  · cases h

/-- A call of user code, or its end. -/
theorem user_next {op : Op V} (hS : s.Sane) (hu : s.InUser) (h : s.userOp op = .ok s') : Next s (.user op) s' := by
  cases op with
  | spawn node =>
    obtain ⟨⟨id, s₁⟩, hs, h⟩ := Except.bind_eq_ok_iff.mp h
    cases h
    obtain ⟨hc, hrun, hid, hlt, rfl⟩ := spawnTaskOnNode_ok hS.exec hs
    exact .spawn node id hu hc hrun hid hlt
  | wake id =>
    simp only [userOp] at h
    split_ifs at h
    obtain ⟨e, he, h⟩ := call_bind.mp h
    cases h
    exact .exec _ e hu (Exec.wakeByRef_quiet he)
  | abort id =>
    simp only [userOp] at h
    split_ifs at h with hk
    obtain ⟨hc, h⟩ := borrow_bind.mp h
    obtain ⟨⟨t, e⟩, he, h⟩ := call_bind.mp h
    have hend : s.ex.state id ≠ .taskEnd := by simpa [knows] using hk
    rcases Exec.abort_spec hS.exec hend with ⟨hl, ha⟩ | ⟨hl, hp, ha⟩ | ⟨hl, hp, ha⟩ <;> rw [ha] at he <;>
      cases he <;> cases h
    · exact .exec _ _ hu (.abortIdle id hl)
    · exact .exec _ _ hu (.abortPolled id hl hp)
    · have := Next.abort id hu hc hl hp
      simpa [Exec.dropUnsent] using this
  | stop node order =>
    obtain ⟨hc, nd, hn, ⟨hrun, hnd, ho, rfl⟩ | ⟨hrun, rfl⟩⟩ := stopNode_ok h
    · exact .stop node order nd hu hc hn hrun hnd ho
    · exact .skip _ hu
  | start node =>
    obtain ⟨hc, h⟩ := borrow_bind.mp h
    split at h
    · cases h
    · cases h; exact .skip _ hu
    · cases h
    · rename_i hrl
      cases h
      exact .start node hu hc hrl
  | createNode =>
    obtain ⟨hc, h⟩ := borrow_bind.mp h
    obtain ⟨⟨id, e⟩, he, h⟩ := call_bind.mp h
    cases h
    unfold Exec.pushNewNode at he
    split_ifs at he with hf
    cases he
    exact .createNode hu hc (by simpa using hf)
  | stopSimulation =>
    obtain ⟨hc, rfl⟩ := stopSimulation_ok h
    exact .stopSimulation hu hc
  | newId =>
    obtain ⟨id, he, h⟩ := call_bind.mp h
    cases h
    obtain ⟨hid, hlt⟩ := Exec.newId_eq hS.exec.bound he
    exact .exec _ _ hu (.newId id hid hlt)
  | newSleep loc deadline =>
    simp only [userOp] at h
    split_ifs at h with hs
    cases h
    exact .newSleep loc deadline hu hs
  | pollSleep loc w =>
    have key : ∀ h' : s.pollSleep loc w = .ok s', (∀ id, w = .task id → s.ex.state id ≠ .taskEnd) →
        Next s (.user (.pollSleep loc w)) s' := by
      intro h' hw
      unfold pollSleep at h'
      cases hs : s.ts.sleeps loc with
      | none => rw [hs] at h'; cases h'
      | some sl =>
        obtain ⟨d, st⟩ := sl
        rw [hs] at h'
        cases st with
        | init t =>
          obtain ⟨hc, h'⟩ := borrow_bind.mp h'
          obtain ⟨ts, hts, h'⟩ := call_bind.mp h'
          cases h'
          exact .pollSleep loc _ w ts hu hs (fun _ _ => hc) hw hts
        | waiting _ | done _ | taken =>
          obtain ⟨ts, hts, h'⟩ := call_bind.mp h'
          cases h'
          exact .pollSleep loc _ w ts hu hs (fun t h => by cases h) hw hts
    cases w with
    | task id =>
      simp only [userOp] at h
      split_ifs at h with hk
      exact key h fun id' h => by cases h; simpa [knows] using hk
    | custom n => exact key h fun id' h => by cases h
  | dropSleep loc =>
    simp only [userOp] at h
    split_ifs at h with hs
    obtain ⟨hc, h⟩ := borrow_bind.mp h
    cases h
    exact .dropSleep loc hu hc hs
  | addSimulator ty =>
    obtain ⟨hc, h⟩ := borrow_bind.mp h
    split_ifs at h with hn ht
    cases h
    exact .addSimulator ty hu hc hn.1 hn.2 (by simpa using ht)
  | withSimulator ty =>
    obtain ⟨hc, h⟩ := borrow_bind.mp h
    split at h
    · cases h
    · split at h
      · cases h
      · cases h
      · rename_i i _ _ sim hs
        cases h
        exact .withSimulator ty i sim hu hc hs
  | pollHandle id =>
    simp only [userOp] at h
    split at h
    · cases h
    · split at h
      · cases h; exact .skip _ hu
      · rename_i r hr
        cases h
        exact .exec _ _ hu (.joined id r hr)
  | done r =>
    simp only [userOp, done] at h
    split at h
    · rename_i rest hk
      obtain ⟨⟨id, s₁⟩, hs, h⟩ := Except.bind_eq_ok_iff.mp h
      cases h
      obtain ⟨hc, hrun, hid, hlt, rfl⟩ := spawnTaskOnNode_ok hS.exec hs
      exact .doneInit r rest id hk hc hrun hid hlt
    · rename_i rest hk
      cases h
      exact .doneWaker r rest hk
    · rename_i caller rest hk
      have hpoll : ∀ h' : s.endPoll r caller rest = .ok s', (r.isSome → s.ex.polling ≠ s.root) →
          Next s (.user (.done r)) s' := by
        intro h' hroot
        obtain ⟨hc, id, hr, ⟨hl, rfl, rfl⟩ | ⟨hd, e, he, ha, hr', hf, rfl⟩⟩ := endPoll_ok hS.exec h'
        · exact .pollKept caller rest id hk hc hr hl
        · refine .pollDropped _ caller rest id r e
            (Or.inl ⟨hk, rfl, fun hs hroot' => hroot hs ?_⟩) hc hr hd he ha hr' hf
          rw [hroot', Exec.polling, hr]
          rfl
      split at h
      · rename_i v
        split_ifs at h with hroot
        · unfold rootReady at h
          split at h
          · cases h
          · rename_i hret
            obtain ⟨hc, rfl⟩ := stopSimulation_ok h
            obtain ⟨t, ht⟩ := Option.isSome_iff_exists.mp (hS.polling caller rest hk hc)
            obtain ⟨id, snd⟩ := t
            obtain rfl : snd = true := (hS.exec.running _ ht).1
            exact .rootReady v caller rest id hk hc ht (by rw [← hroot, ht]; rfl) hret
        · exact hpoll h fun _ => hroot
      · exact hpoll h fun h => by cases h
    · rename_i id post caller rest hk
      cases h
      exact .doneDiscard r id post caller rest hk
    · rename_i i sim rest hk
      obtain ⟨hc, hs, rfl⟩ := putBack_ok h
      exact .putBack r i sim rest (Or.inl hk) hc hs
    · rename_i i sim rest hk
      obtain ⟨hc, hs, rfl⟩ := putBack_ok h
      exact .putBack r i sim rest (Or.inr hk) hc hs
    · rename_i rest hk
      cases h
      exact .doneDropSim r rest hk
    · cases h

/-- **Inversion**: a step that succeeds is one of the cases of `Next`. -/
theorem Sane.next {l : Label V} (hS : s.Sane) (h : s.step l = .ok s') : Next s l s' := by
  cases l with
  | user op =>
    simp only [step] at h
    split at h
    · cases h
    · rename_i f rest hk
      split_ifs at h with hu
      exact user_next hS ⟨f, rest, hk, hu⟩ h
  | run order => exact runtime_next hS h

theorem step_next {l : Label V} (hB : s.Base) (h : s.step l = .ok s') : Next s l s' := hB.sane.next h

end Inversion

/-! ## The invariant is kept -/

section Base

variable {s s' : SimCx V Q} {l : Label V}

/-- The executor acts, if it changes at all. -/
theorem Sane.act (hS : s.Sane) (h : Next s l s') : s'.ex = s.ex ∨ Act s.ex s'.ex := by
  have hlevel : ∀ {node : NodeId} {nd : NodeData}
      {lv : NodeRunLevel}, s.ex.nodes[node]? = some nd → nd.runLevel = lv →
      s.ex.runLevel node = some lv := fun hn hl => by simp [Exec.runLevel, hn, hl]
  cases h with
  | exec op e hu hq => exact Or.inr hq.act
  | spawn node id hu hc hrun hid hlt => exact Or.inr (.spawn node id hrun hid hlt)
  | abort id hu hc hl hp => exact Or.inr (.abort id hl hp)
  | stop node order nd hu hc hn hrun hnd ho => exact Or.inr (.stop node .stopped (hlevel hn hrun) (by decide))
  | start node hu hc hrun => exact Or.inr (.start node hrun)
  | createNode hu hc hf => exact Or.inr (.pushNode hf)
  | stopSimulation hu hc => exact Or.inr .finalStop
  | doneInit r rest id hk hc hrun hid hlt => exact Or.inr (.spawn _ id hrun hid hlt)
  | rootReady v caller rest id hk hc hr hroot hret => exact Or.inr (.rootReady v id hr)
  | pollKept caller rest id hk hc hr hl => exact Or.inr (.pending id hr hl)
  | pollDropped l caller rest id r e hk hc hr hd he ha hr' hf => exact Or.inr ha
  | exhausted order rest hk hc hq hp => exact Or.inr (.exhausted hq)
  | advance order rest loc next time hk hc hq hp ht => exact Or.inr (.exhausted hq)
  | clear order rest id q st hk hc hf hq hs =>
    exact Or.inr (.clear id q st hq hs (hS.idle rest hk hc) hf)
  | poll order rest id q hk hc hf hq hs hr => exact Or.inr (.poll id q hq hs hr hf)
  | wakeTask order rest loc t id q e hk hp hs he => exact Or.inr (Exec.wakeByRef_act he)
  | stopNext order id ids caller rest e hk hc hl =>
    rcases hl with ⟨hl, rfl⟩ | ⟨hl, hp, rfl⟩
    · exact Or.inr (.abortIdle id hl)
    · exact Or.inr (.abortPolled id hl hp)
  | stopDrop order id ids caller rest hk hc hl hp => exact Or.inr (.abort id hl hp)
  | simsNext order cb len i idx caller rest sim hk hc hs => exact Or.inr (.callback _ _ _)
  | stopAllRun order node nodes rest nd hk hc hn hrun hnd ho =>
    exact Or.inr (.stop node .finalStopped (hlevel hn hrun) (by decide))
  | stopAllSkip order node nodes rest nd hk hc hn hrun =>
    refine Or.inr (.finalize node fun h => hrun ?_)
    simpa [Exec.runLevel, hn] using h
  | destroy order rest hk hc hq => exact Or.inr .finalStop
  | _ => exact Or.inl rfl

theorem Next.act (h : Next s l s') (hB : s.Base) : s'.ex = s.ex ∨ Act s.ex s'.ex := hB.sane.act h

theorem Next.exec_inv (h : Next s l s') (hB : s.Base) : s'.ex.Inv := by
  rcases h.act hB with h | h
  · rw [h]; exact hB.exec
  · exact h.inv hB.exec

theorem Next.on (h : Next s l s') (hB : s.Base) {id : Id} {n : NodeId} (hon : s.ex.On id n) : s'.ex.On id n := by
  rcases h.act hB with h | h
  · rw [h]; exact hon
  · exact h.on hB.exec hon

/-- The scheduler acts, if it changes at all. -/
theorem Next.tsAct (h : Next s l s') : s'.ts = s.ts ∨ TimeScheduler.Act s.ts s'.ts := by
  cases h with
  | newSleep loc deadline hu hs => exact Or.inr (.newSleep loc deadline hs)
  | pollSleep loc sl w ts hu hs hc hw h => exact Or.inr (TimeScheduler.pollState_act hs h)
  | dropSleep loc hu hc hs => exact Or.inr (.dropSleep loc hs)
  | advance order rest loc next time hk hc hq hp ht => exact Or.inr (.advance loc next hp)
  | wakeTask order rest loc t id q e hk hp hs he => exact Or.inr (.wake loc t _ q hp hs)
  | wakeCustom order rest loc t n q hk hp hs => exact Or.inr (.wake loc t _ q hp hs)
  | _ => exact Or.inl rfl

theorem Next.sleep_inv (h : Next s l s') (hB : s.Base) : s'.ts.Inv := by
  rcases h.tsAct with h | h
  · rw [h]; exact hB.sleep
  · exact h.inv hB.sleep

/-- A call from user code puts a frame on top. -/
theorem Base.push (hB : s.Base) (hu : s.InUser) (hc : s.cell = .free) {f : Frame V} (hf : f.nests = true) :
    Shape .free s.ex.running.isSome (f :: s.stack) := by
  obtain ⟨g, rest, hk, hg⟩ := hu
  have h := hB.shape
  rw [hk, hc] at h
  rw [hk]
  exact h.push (h.isOpen hg) hf

theorem Next.shape (h : Next s l s') (hB : s.Base) : Shape s'.cell s'.ex.running.isSome s'.stack := by
  have hS := hB.shape
  cases h with
  | exec op e hu hq =>
    show Shape s.cell e.running.isSome s.stack
    rw [hq.running]
    exact hS
  | abort id hu hc hl hp =>
    show Shape s.cell (Exec.dropUnsent _ _ _).running.isSome _
    rw [hc]
    simpa [Exec.dropUnsent] using hB.push hu hc (f := .discard id false s.currentNode) rfl
  | stop node order nd hu hc hn hrun hnd ho =>
    show Shape s.cell _ _
    rw [hc]
    exact hB.push hu hc rfl
  | start node hu hc hrun =>
    show Shape s.cell _ _
    rw [hc]
    exact hB.push hu hc rfl
  | createNode hu hc hf =>
    show Shape s.cell _ _
    rw [hc]
    exact hB.push hu hc rfl
  | stopSimulation hu hc =>
    show Shape s.cell _ _
    rw [hc]
    exact hB.push hu hc rfl
  | withSimulator ty i sim hu hc hs =>
    show Shape s.cell _ _
    rw [hc]
    exact hB.push hu hc rfl
  | doneInit r rest id hk hc hrun hid hlt =>
    show Shape s.cell s.ex.running.isSome _
    rw [hk, hc] at hS
    obtain ⟨rfl, hr⟩ := hS.nested.init_eq
    rw [hc, hr]
    exact .free .loop
  | doneWaker r rest hk =>
    show Shape s.cell s.ex.running.isSome _
    rw [hk] at hS
    obtain ⟨hc, hr, rfl⟩ := hS.waker_eq
    rw [hc, hr]
    exact .waking
  | rootReady v caller rest id hk hc hr hroot hret =>
    show Shape s.cell s.ex.running.isSome _
    rw [hk, hc] at hS
    obtain ⟨rfl, hr⟩ := hS.nested.poll_eq
    rw [hc, hr]
    exact .free (.push (.rootStop v caller) rfl rfl)
  | pollKept caller rest id hk hc hr hl =>
    show Shape s.cell false _
    rw [hk, hc] at hS
    obtain ⟨rfl, -⟩ := hS.nested.poll_eq
    rw [hc]
    exact .free .loop
  | pollDropped l caller rest id r e hk hc hr hd he ha hr' hf =>
    show Shape .borrowed e.running.isSome _
    have hrest : rest = [.loop] := by
      rcases hk with ⟨hk, -⟩ | ⟨v, order, hk, -⟩ <;> rw [hk, hc] at hS
      · exact hS.nested.poll_eq.1
      · exact hS.nested.rootStop_eq.1
    rw [hr', hrest]
    exact .post id caller
  | doneDiscard r id post caller rest hk =>
    show Shape (if post then .free else s.cell) s.ex.running.isSome rest
    rw [hk] at hS
    rcases hS.discard_eq with ⟨rfl, hc, hn⟩ | ⟨rfl, -, hr, rfl⟩
    · rw [if_neg (by decide), hc]
      exact .free hn
    · rw [hr]
      exact .free .loop
  | putBack r i sim rest hk hc hs =>
    show Shape s.cell s.ex.running.isSome rest
    rcases hk with hk | hk <;> rw [hk] at hS <;> rw [hc] <;> exact .free (hS.of_nests rfl).2
  | doneDropSim r rest hk =>
    show Shape s.cell s.ex.running.isSome rest
    rw [hk] at hS
    obtain ⟨hc, hr, time, rfl⟩ := hS.dropSim_eq
    rw [hc, hr]
    exact .free (.dropSims time)
  | exhausted order rest hk hc hq hp =>
    show Shape s.cell s.ex.running.isSome _
    rw [hk, hc] at hS
    obtain ⟨rfl, hr⟩ := hS.nested.loop_eq
    rw [hc, hr]
    exact .free .destroy
  | advance order rest loc next time hk hc hq hp ht =>
    show Shape .borrowed s.ex.running.isSome _
    rw [hk, hc] at hS
    obtain ⟨rfl, hr⟩ := hS.nested.loop_eq
    rw [hr]
    exact .waking
  | poll order rest id q hk hc hf hq hs hr =>
    show Shape s.cell true _
    rw [hk, hc] at hS
    obtain ⟨rfl, -⟩ := hS.nested.loop_eq
    rw [hc]
    exact .free (.poll _)
  | wakeDone order rest hk hs =>
    show Shape .free s.ex.running.isSome rest
    rw [hk] at hS
    obtain ⟨-, hr, rfl⟩ := hS.waking_eq
    rw [hr]
    exact .free .loop
  | wakeTask order rest loc t id q e hk hp hs he =>
    show Shape s.cell e.running.isSome s.stack
    have hr : e.running = s.ex.running := by
      unfold Exec.wakeByRef at he
      split at he <;> cases he <;> rfl
    rw [hr]
    exact hS
  | wakeCustom order rest loc t n q hk hp hs =>
    show Shape s.cell s.ex.running.isSome _
    rw [hk] at hS
    obtain ⟨hc, hr, rfl⟩ := hS.waking_eq
    rw [hc, hr]
    exact .waker
  | stopNext order id ids caller rest e hk hc hl =>
    have hr : e.running = s.ex.running := by rcases hl with ⟨-, rfl⟩ | ⟨-, -, rfl⟩ <;> simp
    show Shape s.cell e.running.isSome _
    rw [hr, hc]
    rw [hk, hc] at hS
    exact .free (hS.nested.swap rfl rfl)
  | stopDrop order id ids caller rest hk hc hl hp =>
    show Shape s.cell (Exec.dropUnsent _ _ _).running.isSome _
    rw [hk, hc] at hS
    rw [hc]
    have hN : Nested s.ex.running.isSome (.stopNode ids caller :: rest) := hS.nested.swap rfl rfl
    simpa [Exec.dropUnsent] using Shape.free (hN.push (f := .discard id false s.currentNode) rfl rfl)
  | stopSims order caller rest hk hc =>
    show Shape s.cell _ _
    rw [hk, hc] at hS
    rw [hc]
    exact .free (hS.nested.swap rfl rfl)
  | simsNext order cb len i idx caller rest sim hk hc hs =>
    show Shape s.cell _ _
    rw [hk, hc] at hS
    rw [hc]
    have hN : Nested s.ex.running.isSome (.sims cb len idx caller :: rest) := hS.nested.swap rfl rfl
    exact .free (hN.push rfl rfl)
  | simsDone order cb len caller rest hk hc hlen =>
    show Shape s.cell _ _
    rw [hk] at hS
    rw [hc]
    exact .free (hS.of_nests rfl).2
  | stopAllRun order node nodes rest nd hk hc hn hrun hnd ho =>
    show Shape s.cell _ _
    rw [hk, hc] at hS
    rw [hc]
    have hN : Nested s.ex.running.isSome (.stopAll nodes :: rest) := hS.nested.swap rfl rfl
    exact .free (hN.push rfl rfl)
  | stopAllSkip order node nodes rest nd hk hc hn hrun =>
    show Shape s.cell _ _
    rw [hk, hc] at hS
    rw [hc]
    exact .free (hS.nested.swap rfl rfl)
  | stopAllDone order rest hk =>
    show Shape s.cell _ _
    rw [hk] at hS
    rw [(hS.of_nests rfl).1]
    exact .free (hS.of_nests rfl).2
  | destroy order rest hk hc hq =>
    show Shape s.cell s.ex.running.isSome _
    rw [hk, hc] at hS
    obtain ⟨rfl, hr⟩ := hS.nested.destroy_eq
    rw [hc, hr]
    exact .free (.push (.dropSims _) rfl rfl)
  | dropSim order time rest sim hk hc hs =>
    show Shape s.cell s.ex.running.isSome _
    rw [hk, hc] at hS
    obtain ⟨rfl, hr⟩ := hS.nested.dropSims_eq
    rw [hc, hr]
    exact .free (.dropSim time)
  | taken order time rest hk hc hs =>
    show Shape .taken s.ex.running.isSome _
    rw [hk, hc] at hS
    obtain ⟨rfl, hr⟩ := hS.nested.dropSims_eq
    rw [hr]
    exact .finished time
  | _ => exact hS

/-- The frames below a step that leaves the polled task alone. -/
theorem Next.mono (h : Next s l s') (hB : s.Base) (hp : s'.ex.polling = s.ex.polling) {cur : NodeId}
    {fs : List (Frame V)} (hf : Scoped s.ex cur fs) : Scoped s'.ex cur fs :=
  hf.mono (fun _ _ => h.on hB) hp

/-- The tasks of a node fit a frame that stops it. -/
theorem Base.on_of_mem (hB : s.Base) {node : NodeId} {nd : NodeData} {order : List Id}
    (hn : s.ex.nodes[node]? = some nd) (ho : order.toFinset = nd.tasks) : ∀ id ∈ order, s.ex.On id node := by
  intro id hid
  have hmem : id ∈ nd.tasks := by rw [← ho]; exact List.mem_toFinset.mpr hid
  obtain ⟨hs, he⟩ := (hB.exec.node_tasks node nd hn id).mp hmem
  refine ⟨fun h => ?_, he⟩
  rw [hB.exec.isSome_iff, h] at hs
  exact absurd hs (by decide)

theorem scoped_loop {e e' : Exec V} {cur : NodeId} (h : Scoped e cur [.loop]) : Scoped e' cur [.loop] := h

theorem Next.frames (h : Next s l s') (hB : s.Base) : Scoped s'.ex s'.currentNode s'.stack := by
  have hF := hB.frames
  have hS := hB.shape
  cases h with
  | exec op e hu hq =>
    refine (Next.exec op e hu hq).mono hB ?_ hF
    show e.running.map _ = _
    rw [hq.running]; rfl
  | spawn node id hu hc hrun hid hlt => exact (Next.spawn node id hu hc hrun hid hlt).mono hB rfl hF
  | abort id hu hc hl hp =>
    have hN := Next.abort id hu hc hl hp
    have hpoll : (((s.ex.note (.abort id)).abortAt id).dropUnsent id false).polling = s.ex.polling := by
      simp [Exec.polling, Exec.dropUnsent]
    refine ⟨hN.on hB ⟨?_, rfl⟩, hN.mono hB hpoll hF⟩
    intro h0
    rw [h0] at hl
    exact absurd hl (by decide)
  | stop node order nd hu hc hn hrun hnd ho =>
    exact ⟨hB.on_of_mem hn ho, (Next.stop node order nd hu hc hn hrun hnd ho).mono hB rfl hF⟩
  | start node hu hc hrun => exact ⟨trivial, (Next.start node hu hc hrun).mono hB rfl hF⟩
  | createNode hu hc hf => exact ⟨trivial, (Next.createNode hu hc hf).mono hB rfl hF⟩
  | stopSimulation hu hc => exact ⟨trivial, (Next.stopSimulation hu hc).mono hB rfl hF⟩
  | withSimulator ty i sim hu hc hs => exact ⟨trivial, hF⟩
  | doneInit r rest id hk hc hrun hid hlt =>
    have hN := Next.doneInit r rest id hk hc hrun hid hlt
    rw [hk] at hF
    exact ⟨trivial, hN.mono hB rfl hF.2⟩
  | doneWaker r rest hk =>
    rw [hk] at hF
    exact hF.2
  | rootReady v caller rest id hk hc hr hroot hret =>
    have hN := Next.rootReady v caller rest id hk hc hr hroot hret
    rw [hk] at hF
    exact ⟨trivial, hF.1.mono (fun _ _ => hN.on hB) rfl, hN.mono hB rfl hF.2⟩
  | pollKept caller rest id hk hc hr hl =>
    rw [hk] at hF hS
    rw [hc] at hS
    obtain ⟨rfl, -⟩ := hS.nested.poll_eq
    exact scoped_loop hF.2
  | pollDropped l caller rest id r e hk hc hr hd he ha hr' hf =>
    have hN := Next.pollDropped l caller rest id r e hk hc hr hd he ha hr' hf
    have hp : s.ex.polling = some id := by rw [Exec.polling, hr]; rfl
    rcases hk with ⟨hk, -⟩ | ⟨v, order, hk, -⟩ <;> rw [hk] at hF hS <;> rw [hc] at hS
    · obtain ⟨rfl, -⟩ := hS.nested.poll_eq
      exact ⟨hN.on hB (hF.1 id hp), scoped_loop hF.2⟩
    · obtain ⟨rfl, -⟩ := hS.nested.rootStop_eq
      exact ⟨hN.on hB (hF.1 id hp), scoped_loop hF.2⟩
  | doneDiscard r id post caller rest hk =>
    rw [hk] at hF
    exact hF.2
  | putBack r i sim rest hk hc hs => rcases hk with hk | hk <;> rw [hk] at hF <;> exact hF.2
  | doneDropSim r rest hk =>
    rw [hk] at hF
    exact hF.2
  | exhausted order rest hk hc hq hp =>
    rw [hk] at hF
    exact ⟨trivial, (Next.exhausted order rest hk hc hq hp).mono hB rfl hF.2⟩
  | advance order rest loc next time hk hc hq hp ht =>
    rw [hk] at hF
    exact ⟨trivial, trivial, (Next.advance order rest loc next time hk hc hq hp ht).mono hB rfl hF.2⟩
  | clear order rest id q st hk hc hf hq hs =>
    have hN := Next.clear order rest id q st hk hc hf hq hs
    exact hN.mono hB rfl hF
  | poll order rest id q hk hc hf hq hs hr =>
    have hN := Next.poll order rest id q hk hc hf hq hs hr
    rw [hk] at hF hS
    rw [hc] at hS
    obtain ⟨rfl, -⟩ := hS.nested.loop_eq
    refine ⟨fun id' hid' => ?_, scoped_loop hF⟩
    obtain rfl : id = id' := by simpa [Exec.takeHead, Exec.polling] using hid'
    exact hN.on hB ⟨by rw [hs]; decide, rfl⟩
  | wakeDone order rest hk hs =>
    rw [hk] at hF
    exact hF.2
  | wakeTask order rest loc t id q e hk hp hs he =>
    have hN := Next.wakeTask order rest loc t id q e hk hp hs he
    refine hN.mono hB ?_ hF
    unfold Exec.wakeByRef at he
    split at he <;> cases he <;> rfl
  | wakeCustom order rest loc t n q hk hp hs =>
    rw [hk] at hF
    exact ⟨trivial, hF⟩
  | stopNext order id ids caller rest e hk hc hl =>
    have hN := Next.stopNext order id ids caller rest e hk hc hl
    have hp : e.polling = s.ex.polling := by rcases hl with ⟨-, rfl⟩ | ⟨-, -, rfl⟩ <;> simp [Exec.polling]
    rw [hk] at hF
    exact ⟨fun id' hid' => hN.on hB (hF.1 id' (List.mem_cons_of_mem _ hid')), hN.mono hB hp hF.2⟩
  | stopDrop order id ids caller rest hk hc hl hp =>
    have hN := Next.stopDrop order id ids caller rest hk hc hl hp
    have hpoll : (((s.ex.note (.abort id)).abortAt id).dropUnsent id false).polling = s.ex.polling := by
      simp [Exec.polling, Exec.dropUnsent]
    rw [hk] at hF
    exact ⟨hN.on hB (hF.1 id List.mem_cons_self),
      fun id' hid' => hN.on hB (hF.1 id' (List.mem_cons_of_mem _ hid')), hN.mono hB hpoll hF.2⟩
  | stopSims order caller rest hk hc =>
    rw [hk] at hF
    exact ⟨trivial, hF.2⟩
  | simsNext order cb len i idx caller rest sim hk hc hs =>
    have hN := Next.simsNext order cb len i idx caller rest sim hk hc hs
    rw [hk] at hF
    exact ⟨trivial, trivial, hN.mono hB rfl hF.2⟩
  | simsDone order cb len caller rest hk hc hlen =>
    rw [hk] at hF
    exact hF.2
  | stopAllRun order node nodes rest nd hk hc hn hrun hnd ho =>
    have hN := Next.stopAllRun order node nodes rest nd hk hc hn hrun hnd ho
    rw [hk] at hF
    exact ⟨hB.on_of_mem hn ho, trivial, hN.mono hB rfl hF.2⟩
  | stopAllSkip order node nodes rest nd hk hc hn hrun =>
    have hN := Next.stopAllSkip order node nodes rest nd hk hc hn hrun
    rw [hk] at hF
    exact ⟨trivial, hN.mono hB rfl hF.2⟩
  | stopAllDone order rest hk =>
    rw [hk] at hF
    exact hF.2
  | destroy order rest hk hc hq =>
    have hN := Next.destroy order rest hk hc hq
    rw [hk] at hF
    exact ⟨trivial, trivial, hN.mono hB rfl hF.2⟩
  | dropSim order time rest sim hk hc hs =>
    rw [hk] at hF
    exact ⟨trivial, hF⟩
  | taken order time rest hk hc hs =>
    rw [hk] at hF
    exact hF
  | _ => exact hF

theorem Next.wakers (h : Next s l s') (hB : s.Base) {loc : Loc} {d : Instant} {id : Id}
    (hw : s'.ts.sleeps loc = some ⟨d, .waiting (.task id)⟩) : s'.ex.state id ≠ .taskEnd := by
  have key : s.ts.sleeps loc = some ⟨d, .waiting (.task id)⟩ → s'.ex.state id ≠ .taskEnd := fun h0 =>
    (h.on hB ⟨hB.wakers loc d id h0, rfl⟩).1
  cases h with
  | newSleep loc' deadline hu hs =>
    by_cases hl : loc = loc'
    · subst hl; simp [TimeScheduler.newSleep] at hw
    · exact key (by simpa [TimeScheduler.newSleep, hl] using hw)
  | pollSleep loc' sl w ts hu hs hc hwk h =>
    rcases TimeScheduler.pollState_waiting h hw with rfl | h0
    · exact hwk id rfl
    · exact key h0
  | dropSleep loc' hu hc hs =>
    by_cases hl : loc = loc'
    · subst hl; simp [TimeScheduler.dropSleep] at hw
    · exact key (by simpa [TimeScheduler.dropSleep, hl] using hw)
  | wakeTask order rest loc' t id' q e hk hp hs he =>
    by_cases hl : loc = loc'
    · subst hl; simp at hw
    · exact key (by simpa [hl] using hw)
  | wakeCustom order rest loc' t n q hk hp hs =>
    by_cases hl : loc = loc'
    · subst hl; simp at hw
    · exact key (by simpa [hl] using hw)
  | _ => exact key hw

theorem Next.settled (h : Next s l s') (hB : s.Base) (hw : .waking ∉ s'.stack) : s'.ts.Settled := by
  have hS := hB.shape
  have hset := hB.settled
  have free : s.cell = .free → s.ts.Settled := fun hc => hset fun h0 => by
    rw [hc] at hS
    exact (hS.nested.not_borrowed h0).1 rfl
  cases h with
  | newSleep loc deadline hu hs => exact (TimeScheduler.Act.newSleep loc deadline hs).settled rfl (hset hw)
  | pollSleep loc sl w ts hu hs hc hwk h =>
    have ha := TimeScheduler.pollState_act hs h
    exact ha.settled (TimeScheduler.pollState_now h) (hset hw)
  | dropSleep loc hu hc hs => exact (TimeScheduler.Act.dropSleep loc hs).settled rfl (hset hw)
  | advance order rest loc next time hk hc hq hp ht => simp at hw
  | wakeTask order rest loc t id q e hk hp hs he => simp [hk] at hw
  | wakeCustom order rest loc t n q hk hp hs => simp at hw
  | wakeDone order rest hk hs => exact hs
  | doneWaker r rest hk =>
    rw [hk] at hS
    obtain ⟨-, -, rfl⟩ := hS.waker_eq
    simp at hw
  | doneDiscard r id post caller rest hk =>
    rw [hk] at hS
    refine hset fun h0 => ?_
    rcases hS.discard_eq with ⟨-, -, hn⟩ | ⟨-, -, -, rfl⟩
    · rw [hk] at h0
      exact hw (by simpa using h0)
    · simp [hk] at h0
  | doneDropSim r rest hk =>
    rw [hk] at hS
    exact free hS.dropSim_eq.1
  | stopAllDone order rest hk =>
    rw [hk] at hS
    exact free (hS.of_nests rfl).1
  | _ => first | exact hset hw | exact free (by assumption)

/-- **The invariant is kept by every step.** -/
theorem Next.base (h : Next s l s') (hB : s.Base) : s'.Base where
  exec := h.exec_inv hB
  sleep := h.sleep_inv hB
  settled := h.settled hB
  wakers _ _ _ := h.wakers hB
  shape := h.shape hB
  frames := h.frames hB

theorem step_base (hB : s.Base) (h : s.step l = .ok s') : s'.Base := (step_next hB h).base hB

theorem base_install (b : SimBuilder) : (install b : SimCx V Q).Base where
  exec := Exec.inv_new
  sleep := TimeScheduler.inv_new _
  settled _ := TimeScheduler.settled_new _
  wakers loc d id h := by simp [install, TimeScheduler.new] at h
  shape := .free .init
  frames := ⟨trivial, rfl⟩

theorem Reachable.base {b : SimBuilder} (h : Reachable b s) : s.Base :=
  h.inv (fun _ _ _ => step_base) (base_install b)

theorem Reachable.tail {b : SimBuilder} (h : Reachable b s) (h' : s.step l = .ok s') : Reachable b s' :=
  Machine.Steps.tail h h'

/-- The rule for invariants of the simulation: a step is one of the cases of `Next`, from a state with `Base`. -/
theorem Reachable.invariant {b : SimBuilder} {I : SimCx V Q → Prop} (hr : Reachable b s) (h0 : I (install b))
    (hI : ∀ s l s', s.Base → I s → Next s l s' → I s') : I s :=
  Machine.Steps.inv_of (J := SimCx.Base) (fun _ _ _ => step_base)
    (fun s l s' hB hi hst => hI s l s' hB hi (step_next hB hst)) hr (base_install b) h0

end Base

/-- A simulation that starts at the epoch. -/
def epoch : SimBuilder := ⟨⟨0, 0, by decide, nanosPerSec_pos⟩, by decide⟩

def fiveSeconds : Instant := ⟨5, 0, by decide, by decide, nanosPerSec_pos⟩

/-- The simulation with an array as its queue. -/
abbrev ArraySim := SimCx ℕ (SwapArray Loc Instant)

end SimCx

end Refault
