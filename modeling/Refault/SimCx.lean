import Refault.Lib.Machine
import Refault.Executor
import Refault.TimeScheduler

/-!
# Refault.SimCx — the simulation, step by step

The thread-local `SimCx` with everything in it, and the control stack of the simulation thread from
`SimBuilder::run_simulation` up to whatever runs now.  A frame is either a place in the runtime (`loop`,
`stopNode`, `sims`, …), which `runtime` continues, or user code: the closure `f` of `SimBuilder::run`, a
future being polled, the destructor of a future or of a simulator, a simulator callback, a closure under
`SimulatorHandle::with`, a user's waker. User code may make any call at any time (`Op`), and these calls put
further frames on top of its own.  So every nesting of polls, destructors, stops, starts and callbacks is a
run of `step`.

The `RefCell` around the context is `cell`: `borrow` is a `borrow_mut` that ends before user code runs again,
and the cell is `borrowed` in the two places where user code runs inside `with_cx`: the wakers called by
`wait_until_next_future_ready`, and the destructor of a future dropped after its last poll.  A call that needs
the context then panics.  The queue's `RefCell` is never borrowed while user code runs.

A run ends at its first panic, which nothing inside the simulation catches; what a panic leaves is in
`Refault.Unwind`.  The `clone` of a waker does nothing in the simulation.
-/

namespace Refault

/-- `SimCx::context`, as a `RefCell<Option<_>>`. -/
inductive CxCell
  | free
  | borrowed
  | taken
deriving DecidableEq

/-- A frame of the control stack; `caller` is what `node_scope` restores. -/
inductive Frame (V : Type)
  /-- user code: `f` of `SimBuilder::run`, before the root task is spawned -/
  | init
  /-- `run_current_context`, at the head of its loop or of the inner loop -/
  | loop
  /-- the `while let` of `wait_until_next_future_ready` -/
  | waking
  /-- user code: a user's waker, called there -/
  | waker
  /-- user code: the future of `running`, in `Task::run` -/
  | poll (caller : NodeId)
  /-- the root future has returned `v` and the wrapper is in `stop_simulation` -/
  | rootStop (v : V) (caller : NodeId)
  /-- user code: the destructor of the future of `id`; `post` after its poll, inside `with_cx` -/
  | discard (id : Id) (post : Bool) (caller : NodeId)
  /-- `stop_node`, with the ids still to be aborted -/
  | stopNode (ids : List Id) (caller : NodeId)
  /-- `for_all_simulators`, with the indices still to be called -/
  | sims (cb : Callback) (len : ℕ) (idx : List ℕ) (caller : NodeId)
  /-- user code: a callback of the simulator taken from slot `index` -/
  | callback (index : ℕ) (sim : SimTy)
  /-- user code: a closure with the simulator taken from slot `index` -/
  | withSim (index : ℕ) (sim : SimTy)
  /-- `stop_simulation`, with the nodes still to be stopped -/
  | stopAll (nodes : List NodeId)
  /-- `ContextInstallGuard::destroy`, at its start -/
  | destroy
  /-- `destroy`, popping simulators; `time` as read at its start -/
  | dropSims (time : Duration)
  /-- user code: the destructor of a simulator -/
  | dropSim
  /-- the simulation thread has returned -/
  | finished (time : Duration)
deriving DecidableEq

namespace Frame

variable {V : Type}

def isUser : Frame V → Bool
  | .init | .waker | .poll _ | .discard .. | .callback .. | .withSim .. | .dropSim => true
  | _ => false

end Frame

/-- What user code can do: a call of the runtime's API, or `done`, its end (for a poll with its result).
`IdRange::new` is not here: it draws from the counter of `newId`, and when the range does not wrap it is that
many of them (`Refault.Ids`). -/
inductive Op (V : Type)
  | spawn (node : NodeId)
  | wake (id : Id)
  | abort (id : Id)
  /-- `NodeId::stop`; `order` is the iteration order of the node's `HashSet` -/
  | stop (node : NodeId) (order : List Id)
  | start (node : NodeId)
  | createNode
  | stopSimulation
  | newId
  | newSleep (loc : Loc) (deadline : Instant)
  | pollSleep (loc : Loc) (w : Waker)
  | dropSleep (loc : Loc)
  | addSimulator (ty : SimTy)
  | withSimulator (ty : SimTy)
  | pollHandle (id : Id)
  | done (r : Option V)

/-- A step: of user code, or of the runtime; `order` is as in `Op.stop`, for the stops of `stop_simulation`. -/
inductive Label (V : Type)
  | user (op : Op V)
  | run (order : List Id)

/-- `SimBuilder`; its start time comes from a `SystemTime` at or after the epoch. -/
structure SimBuilder where
  simulationStartTime : Duration
  secs_lt : simulationStartTime.secs < 2 ^ 63

/-- `SimBuilder::with_simulation_start_time`; `none` is the panic of `duration_since(UNIX_EPOCH).unwrap()`. -/
def SimBuilder.withSimulationStartTime (t : Timespec) : Option SimBuilder :=
  match h : t.sinceEpoch with
  | none => none
  | some d => some ⟨d, Timespec.sinceEpoch_secs_lt h⟩

structure SimCx (V Q : Type) where
  ex : Exec V
  ts : TimeScheduler Q
  cell : CxCell
  currentNode : NodeId
  startTime : Duration
  time : Duration
  simulators : List (Option SimTy)
  simulatorsByType : SimTy → Option ℕ
  events : List Event
  root : Option Id
  ret : Option V
  stack : List (Frame V)

namespace SimCx

variable {V Q : Type} [KeyedQueue Q Loc Instant]

/-- `clock_gettime`, and so `Instant::now()`. -/
def clockGettime (time : Duration) : Instant := Timespec.ofDuration time

/-- `ContextInstallGuard::new`. -/
def install (b : SimBuilder) : SimCx V Q where
  ex := Exec.new
  ts := TimeScheduler.new (clockGettime b.simulationStartTime)
  cell := .free
  currentNode := initNode
  startTime := b.simulationStartTime
  time := b.simulationStartTime
  simulators := []
  simulatorsByType _ := none
  events := []
  root := none
  ret := none
  stack := [.init]

/-- `context.borrow_mut().as_mut().unwrap()`, released before user code runs. -/
def borrow (s : SimCx V Q) : Except Halt Unit :=
  match s.cell with
  | .free => .ok ()
  | .borrowed => .error (.panic .alreadyBorrowed)
  | .taken => .error (.panic .contextMissing)

/-- A call into the executor or the time scheduler. -/
def call {A : Type} (x : Except Panic A) : Except Halt A := x.mapError .panic

/-! ## Calls of user code -/

/-- `spawn_task_on_node`. -/
def spawnTaskOnNode (s : SimCx V Q) (node : NodeId) : Except Halt (Id × SimCx V Q) := do
  s.borrow
  let (id, e) ← call (s.ex.spawn node)
  pure (id, { s with ex := e, events := s.events ++ [.taskSpawned] })

/-- `AbortHandle::abort_inner`: the future is dropped after the context is released. -/
def abort (s : SimCx V Q) (id : Id) : Except Halt (SimCx V Q) := do
  s.borrow
  let (task, e) ← call (s.ex.abort id)
  match task with
  | none => pure { s with ex := e }
  | some t =>
    pure { s with ex := e, currentNode := e.node id, stack := .discard t.id false s.currentNode :: s.stack }

/-- `stop_node`, up to its loop. -/
def stopNode (s : SimCx V Q) (node : NodeId) (isFinal : Bool) (order : List Id) : Except Halt (SimCx V Q) := do
  s.borrow
  match s.ex.nodes[node]? with
  | none => .error (.panic (.nodeIndex node))
  | some nd =>
    match nd.runLevel with
    | .running =>
      if order.Nodup ∧ order.toFinset = nd.tasks then
        pure { s with
          ex := (s.ex.setRunLevel node (if isFinal then .finalStopped else .stopped)).note (.stop node)
          currentNode := node
          stack := .stopNode order s.currentNode :: s.stack }
      else .error .disabled
    | .stopped | .finalStopped =>
      pure (if isFinal then { s with ex := s.ex.setRunLevel node .finalStopped } else s)

/-- Enter `for_all_simulators` under a `node_scope`. -/
def forAllSimulators (s : SimCx V Q) (cb : Callback) (node : NodeId) (forward : Bool) : SimCx V Q :=
  let len := s.simulators.length
  let idx := if forward then List.range len else (List.range len).reverse
  { s with currentNode := node, stack := .sims cb len idx s.currentNode :: s.stack }

/-- `start_node`. -/
def startNode (s : SimCx V Q) (node : NodeId) : Except Halt (SimCx V Q) := do
  s.borrow
  match s.ex.runLevel node with
  | none => .error (.panic (.nodeIndex node))
  | some .running => pure s
  | some .finalStopped => .error (.panic .startDuringShutdown)
  | some .stopped =>
    let s' : SimCx V Q := { s with ex := s.ex.setRunLevel node .running }
    pure (s'.forAllSimulators .start node false)

/-- `NodeId::create_node`. -/
def createNode (s : SimCx V Q) : Except Halt (SimCx V Q) := do
  s.borrow
  let (id, e) ← call s.ex.pushNewNode
  let s' : SimCx V Q := { s with ex := e, events := s.events ++ [.nodeSpawned id] }
  pure (s'.forAllSimulators .create id true)

/-- `stop_simulation`. -/
def stopSimulation (s : SimCx V Q) : Except Halt (SimCx V Q) := do
  s.borrow
  pure { s with
    ex := { s.ex with finalStopped := true }
    stack := .stopAll (List.range s.ex.nodes.length) :: s.stack }

/-- `Sleep::poll`; only a `Sleep` in state `Init` uses the context. -/
def pollSleep (s : SimCx V Q) (loc : Loc) (w : Waker) : Except Halt (SimCx V Q) := do
  match s.ts.sleeps loc with
  | none => .error .disabled
  | some sl =>
    match sl.state with
    | .init _ => s.borrow
    | _ => pure ()
    let ts ← call (s.ts.pollState loc sl.deadline w sl.state)
    pure { s with ts := ts }

/-- `add_simulator`. -/
def addSimulator (s : SimCx V Q) (ty : SimTy) : Except Halt (SimCx V Q) := do
  s.borrow
  if s.ex.nodes.length = 1 ∧ s.ex.finalStopped = false then
    if (s.simulatorsByType ty).isSome then .error (.panic .simulatorTwice)
    else
      pure { s with
        simulatorsByType := Function.update s.simulatorsByType ty (some s.simulators.length)
        simulators := s.simulators ++ [some ty] }
  else .error (.panic .simulatorTooLate)

/-- `SimulatorHandle::get` and `with`: take the simulator out of its slot. -/
def withSimulator (s : SimCx V Q) (ty : SimTy) : Except Halt (SimCx V Q) := do
  s.borrow
  match s.simulatorsByType ty with
  | none => .error (.panic .simulatorMissing)
  | some i =>
    match s.simulators[i]? with
    | none => .error (.panic .simulatorIndex)
    | some none => .error (.panic .simulatorBorrowed)
    | some (some sim) => pure { s with simulators := s.simulators.set i none, stack := .withSim i sim :: s.stack }

/-- Put a simulator back into its slot, which is empty. -/
def putBack (s : SimCx V Q) (i : ℕ) (sim : SimTy) (rest : List (Frame V)) : Except Halt (SimCx V Q) := do
  s.borrow
  match s.simulators[i]? with
  | none => .error (.panic .simulatorIndex)
  | some (some _) => .error (.panic .simulatorSlot)
  | some none => pure { s with simulators := s.simulators.set i (some sim), stack := rest }

/-- The end of `Task::run` and the closure after it; a future that is dropped there is dropped inside `with_cx`. -/
def endPoll (s : SimCx V Q) (r : Option V) (caller : NodeId) (rest : List (Frame V)) :
    Except Halt (SimCx V Q) := do
  s.borrow
  match s.ex.running with
  | none => .error .disabled
  | some t =>
    let (task, e) ← call (s.ex.pollEnd t r)
    match task with
    | none => pure { s with ex := e, currentNode := caller, stack := rest }
    | some t => pure { s with ex := e, cell := .borrowed, stack := .discard t.id true caller :: rest }

/-- The root wrapper of `SimBuilder::run` after `fut.await`: set `ret2`, then `stop_simulation`. -/
def rootReady (s : SimCx V Q) (v : V) (caller : NodeId) (rest : List (Frame V)) : Except Halt (SimCx V Q) :=
  match s.ret with
  | some _ => .error (.panic (.site .rootTwice))
  | none =>
    let s' : SimCx V Q :=
      { s with ex := s.ex.note (.rootReady v), ret := some v, stack := .rootStop v caller :: rest }
    s'.stopSimulation

/-- User code returns. -/
def done (s : SimCx V Q) (r : Option V) : Except Halt (SimCx V Q) :=
  match s.stack with
  | .init :: rest => do
    let (id, s) ← s.spawnTaskOnNode s.currentNode
    pure { s with root := some id, stack := .loop :: rest }
  | .waker :: rest => .ok { s with stack := rest }
  | .poll caller :: rest =>
    match r with
    | some v =>
      if s.ex.running.map (·.id) = s.root then s.rootReady v caller rest else s.endPoll (some v) caller rest
    | none => s.endPoll none caller rest
  | .discard _ post caller :: rest =>
    .ok { s with cell := if post then .free else s.cell, currentNode := caller, stack := rest }
  | .callback i sim :: rest => s.putBack i sim rest
  | .withSim i sim :: rest => s.putBack i sim rest
  | .dropSim :: rest => .ok { s with stack := rest }
  | _ => .error .disabled

/-- A waker can be made for a task that exists only. -/
def knows (s : SimCx V Q) (id : Id) : Bool := s.ex.state id ≠ .taskEnd

def userOp (s : SimCx V Q) : Op V → Except Halt (SimCx V Q)
  | .spawn node => do
    let (_, s) ← s.spawnTaskOnNode node
    pure s
  | .wake id =>
    if s.knows id then do
      let e ← call (s.ex.wakeByRef id)
      pure { s with ex := e }
    else .error .disabled
  | .abort id => if s.knows id then s.abort id else .error .disabled
  | .stop node order => s.stopNode node false order
  | .start node => s.startNode node
  | .createNode => s.createNode
  | .stopSimulation => s.stopSimulation
  | .newId => do
    let id ← call (Refault.newId s.ex.preNextGlobalId)
    pure { s with ex := { s.ex with preNextGlobalId := id } }
  | .newSleep loc deadline =>
    if s.ts.sleeps loc = none then .ok { s with ts := s.ts.newSleep loc deadline } else .error .disabled
  | .pollSleep loc w =>
    match w with
    | .task id => if s.knows id then s.pollSleep loc w else .error .disabled
    | .custom _ => s.pollSleep loc w
  | .dropSleep loc =>
    if s.ts.sleeps loc = none then .error .disabled
    else do
      s.borrow
      pure { s with ts := s.ts.dropSleep loc }
  | .addSimulator ty => s.addSimulator ty
  | .withSimulator ty => s.withSimulator ty
  | .pollHandle id =>
    match s.ex.chan id with
    | .closed => .error .disabled
    | _ =>
      match s.ex.pollHandle id with
      | none => .ok s
      | some r => .ok { s with ex := (s.ex.closeHandle id).note (.joined id r) }
  | .done r => s.done r

/-! ## The runtime -/

/-- `run_current_context` when the pop answers `None`: advance time, or leave the loop. -/
def idle (s : SimCx V Q) (rest : List (Frame V)) : Except Halt (SimCx V Q) :=
  match KeyedQueue.peek s.ts.upcomingEvents with
  | none => .ok { s with ex := s.ex.note .exhausted, stack := .destroy :: rest }
  | some (_, next) =>
    let dt := next.durationSince s.ts.now
    match s.time.checkedAdd dt with
    | none => .error (.panic .durationOverflow)
    | some time =>
      .ok { s with
        ex := s.ex.note .exhausted
        events := s.events ++ [.timeAdvanced dt]
        time := time
        ts := s.ts.advanceTo next
        cell := .borrowed
        stack := .waking :: .loop :: rest }

/-- `run_current_context`, one round of its inner loop. -/
def runLoop (s : SimCx V Q) (rest : List (Frame V)) : Except Halt (SimCx V Q) := do
  s.borrow
  if s.ex.finalStopped then s.idle rest
  else
    match s.ex.readyQueue with
    | [] => s.idle rest
    | id :: queue =>
      let (task, e) ← call ((s.ex.setQueue queue).popped id)
      match task with
      | none => pure { s with ex := e }
      | some t =>
        pure { s with
          ex := e
          events := s.events ++ [.taskRun id]
          currentNode := e.node t.id
          stack := .poll s.currentNode :: .loop :: rest }

/-- One turn of the loop that wakes the due `Sleep`s. -/
def wakeNext (s : SimCx V Q) (rest : List (Frame V)) : Except Halt (SimCx V Q) := do
  let (w, ts) ← call s.ts.wakeNext
  match w with
  | none => pure { s with cell := .free, stack := rest }
  | some (.task id) => do
    let e ← call (s.ex.wakeByRef id)
    pure { s with ts := ts, ex := e }
  | some (.custom _) => pure { s with ts := ts, stack := .waker :: .waking :: rest }

/-- The next id of `stop_node`'s loop; its future is dropped after the context is released. -/
def abortNext (s : SimCx V Q) (id : Id) (ids : List Id) (caller : NodeId) (rest : List (Frame V)) :
    Except Halt (SimCx V Q) := do
  s.borrow
  let (task, e) ← call (s.ex.abort id)
  match task with
  | none => pure { s with ex := e, stack := .stopNode ids caller :: rest }
  | some t => pure { s with ex := e, stack := .discard t.id false s.currentNode :: .stopNode ids caller :: rest }

/-- The next index of `for_all_simulators`: take the simulator out of its slot and call it. -/
def callNext (s : SimCx V Q) (cb : Callback) (len i : ℕ) (idx : List ℕ) (caller : NodeId) (rest : List (Frame V)) :
    Except Halt (SimCx V Q) := do
  s.borrow
  match s.simulators[i]? with
  | none => .error (.panic .simulatorIndex)
  | some none => .error (.panic .simulatorBorrowed)
  | some (some sim) =>
    pure { s with
      simulators := s.simulators.set i none
      ex := s.ex.note (.callback sim cb s.currentNode)
      stack := .callback i sim :: .sims cb len idx caller :: rest }

/-- `ContextInstallGuard::destroy`, up to the simulators. -/
def destroy (s : SimCx V Q) (rest : List (Frame V)) : Except Halt (SimCx V Q) := do
  if s.currentNode ≠ initNode then .error (.panic (.site .destroyNode))
  else
    s.borrow
    if s.ex.readyQueue = [] ∨ s.ex.finalStopped = true then
      ({ s with stack := .dropSims s.time :: rest } : SimCx V Q).stopSimulation
    else .error (.panic (.site .destroyQueue))

/-- `ContextInstallGuard::destroy`: pop and drop a simulator, or take the context out of its cell. -/
def dropSims (s : SimCx V Q) (time : Duration) (rest : List (Frame V)) : Except Halt (SimCx V Q) := do
  s.borrow
  match s.simulators.getLast? with
  | none => pure { s with cell := .taken, stack := .finished time :: rest }
  | some none => .error (.panic .simulatorBorrowed)
  | some (some _) =>
    pure { s with simulators := s.simulators.dropLast, stack := .dropSim :: .dropSims time :: rest }

/-- The runtime continues at the top frame. -/
def runtime (s : SimCx V Q) (order : List Id) : Except Halt (SimCx V Q) :=
  match s.stack with
  | .loop :: rest => s.runLoop rest
  | .waking :: rest => s.wakeNext rest
  | .rootStop v caller :: rest => s.endPoll (some v) caller rest
  | .stopNode (id :: ids) caller :: rest => s.abortNext id ids caller rest
  | .stopNode [] caller :: rest => do
    s.borrow
    let len := s.simulators.length
    pure { s with stack := .sims .stop len (List.range len).reverse caller :: rest }
  | .sims cb len (i :: idx) caller :: rest => s.callNext cb len i idx caller rest
  | .sims _ len [] caller :: rest => do
    s.borrow
    if s.simulators.length = len then pure { s with currentNode := caller, stack := rest }
    else .error (.panic .simulatorsChanged)
  | .stopAll (node :: nodes) :: rest =>
    ({ s with stack := .stopAll nodes :: rest } : SimCx V Q).stopNode node true order
  | .stopAll [] :: rest => .ok { s with stack := rest }
  | .destroy :: rest => s.destroy rest
  | .dropSims time :: rest => s.dropSims time rest
  | _ => .error .disabled

def step (s : SimCx V Q) : Label V → Except Halt (SimCx V Q)
  | .user op =>
    match s.stack with
    | [] => .error .disabled
    | f :: _ => if f.isUser then s.userOp op else .error .disabled
  | .run order => s.runtime order

/-- The states of the simulation that `b` builds. -/
def Reachable (b : SimBuilder) (s : SimCx V Q) : Prop := Machine.Steps step (install b) s

end SimCx

end Refault
