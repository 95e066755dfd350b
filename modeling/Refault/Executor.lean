import Mathlib.Tactic.Common
import Mathlib.Logic.Function.Basic
import Mathlib.Tactic.Simps.Basic
import Refault.Basic

/-!
# Refault.Executor — tasks, the ready queue and the nodes

`Exec` is `ExecutorQueue` and `Executor` (without its time scheduler), with the `TaskShared` of every task
ever spawned, which wakers and handles keep alive after the entry is gone, and the `oneshot` channel of its
`TaskHandle`.  `running` is the local `task` of `run_current_context` from the pop until the end of the poll.
`log` records what is observed and is read by no function.

A future's own code does not appear here: what it does while it is polled or dropped are calls of these
functions, made by `Refault.SimCx`.
-/

namespace Refault

/-- `TaskShared`; for an id that no task was spawned with the state is `taskEnd`. -/
structure TaskShared where
  state : TaskState
  node : NodeId

/-- `Task<F>`: the id stands for the `Arc<TaskShared>`, `snd` says whether the sender is still there. -/
structure Task where
  id : Id
  snd : Bool

structure TaskEntry where
  task : Option Task

structure NodeData where
  runLevel : NodeRunLevel
  tasks : Finset Id

/-- The channel between a task and its `TaskHandle`; `closed` after the handle has resolved. -/
inductive OneShot (V : Type)
  | empty
  | value (v : V)
  | canceled
  | closed

structure Exec (V : Type) where
  readyQueue : List Id
  shared : Id → TaskShared
  tasks : Id → Option TaskEntry
  nodes : List NodeData
  finalStopped : Bool
  preNextGlobalId : ℕ
  running : Option Task
  chan : Id → OneShot V
  log : List (Obs V)

/-- `Id::new` on the counter: a wrapped counter is no id. -/
def newId (preNext : ℕ) : Except Panic Id :=
  let id := (preNext + 1) % 2 ^ 64
  if id = 0 then .error .idsExhausted else .ok id

namespace Exec

variable {V : Type}

/-- `ExecutorQueue::new` and `ExecutorQueue::executor`. -/
def new : Exec V where
  readyQueue := []
  shared _ := ⟨.taskEnd, initNode⟩
  tasks _ := none
  nodes := [⟨.running, ∅⟩]
  finalStopped := false
  preNextGlobalId := 0
  running := none
  chan _ := .empty
  log := []

def state (e : Exec V) (id : Id) : TaskState := (e.shared id).state

def node (e : Exec V) (id : Id) : NodeId := (e.shared id).node

@[simps] def setState (e : Exec V) (id : Id) (st : TaskState) : Exec V :=
  { e with shared := Function.update e.shared id ⟨st, e.node id⟩ }

@[simps] def setEntry (e : Exec V) (id : Id) (entry : Option TaskEntry) : Exec V :=
  { e with tasks := Function.update e.tasks id entry }

@[simps] def pushReady (e : Exec V) (id : Id) : Exec V := { e with readyQueue := e.readyQueue ++ [id] }

@[simps] def setQueue (e : Exec V) (queue : List Id) : Exec V := { e with readyQueue := queue }

@[simps] def setRunning (e : Exec V) (task : Option Task) : Exec V := { e with running := task }

@[simps] def setChan (e : Exec V) (id : Id) (c : OneShot V) : Exec V :=
  { e with chan := Function.update e.chan id c }

@[simps] def note (e : Exec V) (o : Obs V) : Exec V := { e with log := e.log ++ [o] }

section Update

variable (e : Exec V) (id id' : Id)

@[simp] theorem state_setState (st : TaskState) :
    (e.setState id st).state id' = if id' = id then st else e.state id' := by
  unfold state
  by_cases h : id' = id
  · subst h; simp
  · simp [h]

@[simp] theorem node_setState (st : TaskState) : (e.setState id st).node id' = e.node id' := by
  unfold node
  by_cases h : id' = id
  · subst h; simp [node]
  · simp [h]

@[simp] theorem state_setEntry (o : Option TaskEntry) : (e.setEntry id o).state id' = e.state id' := rfl
@[simp] theorem node_setEntry (o : Option TaskEntry) : (e.setEntry id o).node id' = e.node id' := rfl
@[simp] theorem state_pushReady : (e.pushReady id).state id' = e.state id' := rfl
@[simp] theorem node_pushReady : (e.pushReady id).node id' = e.node id' := rfl
@[simp] theorem state_setQueue (q : List Id) : (e.setQueue q).state id = e.state id := rfl
@[simp] theorem node_setQueue (q : List Id) : (e.setQueue q).node id = e.node id := rfl
@[simp] theorem state_setRunning (t : Option Task) : (e.setRunning t).state id = e.state id := rfl
@[simp] theorem node_setRunning (t : Option Task) : (e.setRunning t).node id = e.node id := rfl
@[simp] theorem state_setChan (c : OneShot V) : (e.setChan id c).state id' = e.state id' := rfl
@[simp] theorem node_setChan (c : OneShot V) : (e.setChan id c).node id' = e.node id' := rfl
@[simp] theorem state_note (o : Obs V) : (e.note o).state id = e.state id := rfl
@[simp] theorem node_note (o : Obs V) : (e.note o).node id = e.node id := rfl

end Update

/-- `TaskShared::wake_by_ref`. -/
def wakeByRef (e : Exec V) (id : Id) : Except Panic (Exec V) :=
  match e.state id with
  | .complete | .completeReady | .aborted | .abortedReady | .ready => .ok (e.note (.wake id))
  | .waiting => .ok (((e.note (.wake id)).setState id .ready).pushReady id)
  | .taskEnd => .error (.site .wakeState)

/-- The part of `Executor::spawn` between the check of the run level and the wake. -/
def insertTask (e : Exec V) (node : NodeId) (id : Id) : Exec V :=
  { e with
    preNextGlobalId := id
    shared := Function.update e.shared id ⟨.waiting, node⟩
    tasks := Function.update e.tasks id (some ⟨some ⟨id, true⟩⟩)
    nodes := e.nodes.modify node fun nd => { nd with tasks := insert id nd.tasks }
    chan := Function.update e.chan id .empty
    log := e.log ++ [.spawn id node] }

/-- `Executor::spawn`. -/
def spawn (e : Exec V) (node : NodeId) : Except Panic (Id × Exec V) :=
  match e.nodes[node]? with
  | none => .error (.nodeIndex node)
  | some nd =>
    match nd.runLevel with
    | .stopped | .finalStopped => .error (.nodeIsStopped node)
    | .running => do
      let id ← newId e.preNextGlobalId
      let e ← (e.insertTask node id).wakeByRef id
      pure (id, e)

/-- `Executor::remove_task_entry`. -/
def removeTaskEntry (e : Exec V) (id : Id) : Except Panic (Exec V) :=
  match e.tasks id with
  | none => .error (.site .removeEntry)
  | some entry =>
    if entry.task.isSome then .error (.site .removeTask)
    else
      match e.nodes[e.node id]? with
      | none => .error (.site .removeNode)
      | some nd =>
        if id ∈ nd.tasks then
          .ok { e.setEntry id none with
            nodes := e.nodes.modify (e.node id) fun nd => { nd with tasks := nd.tasks.erase id } }
        else .error (.site .removeNode)

/-- One round of the inner loop of `run_current_context` with `id` popped: the task to poll, if `id` is no
tombstone. -/
def popped (e : Exec V) (id : Id) : Except Panic (Option Task × Exec V) :=
  match e.tasks id with
  | none => .error (.site .popEntry)
  | some entry =>
    match e.state id with
    | .ready =>
      match entry.task with
      | none => .error (.site .popTask)
      | some t =>
        .ok (some t, (((e.setEntry id (some ⟨none⟩)).setState id .waiting).note (.poll id)).setRunning (some t))
    | .completeReady => do
      let e ← (e.setState id .complete).removeTaskEntry id
      pure (none, e)
    | .abortedReady => do
      let e ← (e.setState id .aborted).removeTaskEntry id
      pure (none, e)
    | .complete | .aborted | .waiting | .taskEnd => .error (.site .popState)

/-- `abort_local`: the future, if the task is live and not being polled. -/
def abortLocal (e : Exec V) (id : Id) : Except Panic (Option Task × Exec V) :=
  match e.tasks id with
  | none => .ok (none, e)
  | some entry =>
    match e.state id with
    | .aborted | .abortedReady | .complete | .completeReady => .ok (none, e)
    | .ready => .ok (entry.task, (e.setState id .abortedReady).setEntry id (some ⟨none⟩))
    | .waiting => .ok (entry.task, ((e.setState id .abortedReady).pushReady id).setEntry id (some ⟨none⟩))
    | .taskEnd => .error (.site .abortState)

/-- The drop of a task's future, as far as the runtime does it: an unsent sender cancels its receiver. -/
def dropTask (e : Exec V) (t : Task) (borrowed : Bool) : Exec V :=
  (if t.snd then e.setChan t.id .canceled else e).note (.drop t.id borrowed)

/-- `abort_local` and the drop of what it answers, as in `abort_inner` and `stop_node`. -/
def abort (e : Exec V) (id : Id) : Except Panic (Option Task × Exec V) := do
  let (task, e) ← (e.note (.abort id)).abortLocal id
  match task with
  | none => pure (none, e)
  | some t => pure (some t, e.dropTask t false)

/-- `run_current_context` after `Task::run` with `Poll::Pending`; answers the future if it is dropped. -/
def pollPending (e : Exec V) (t : Task) : Except Panic (Option Task × Exec V) :=
  match e.state t.id with
  | .abortedReady => .ok (some t, (e.setRunning none).dropTask t true)
  | .waiting | .ready =>
    match e.tasks t.id with
    | none => .error (.site .putBackEntry)
    | some entry =>
      if entry.task.isSome then .error (.site .putBackTask)
      else .ok (none, (e.setEntry t.id (some ⟨some t⟩)).setRunning none)
  | .aborted | .complete | .completeReady | .taskEnd => .error (.site .pendingState)

/-- `Task::run` with `Poll::Ready(v)`: the value goes into the channel. -/
def sendValue (e : Exec V) (t : Task) (v : V) : Except Panic (Exec V) :=
  if t.snd then .ok (e.setChan t.id (.value v)) else .error (.site .senderTaken)

/-- `run_current_context` after `Task::run` with `Poll::Ready`; the future is dropped. -/
def pollReady (e : Exec V) (t : Task) : Except Panic (Option Task × Exec V) :=
  match e.state t.id with
  | .aborted | .complete | .completeReady | .taskEnd => .error (.site .readyState)
  | .waiting => do
    let e ← (e.setState t.id .complete).removeTaskEntry t.id
    pure (some t, (e.setRunning none).dropTask t true)
  | .ready | .abortedReady =>
    .ok (some t, ((e.setState t.id .completeReady).setRunning none).dropTask t true)

/-- The end of a poll: `Task::run` and the closure after it. -/
def pollEnd (e : Exec V) (t : Task) (r : Option V) : Except Panic (Option Task × Exec V) :=
  match r with
  | none => (e.note (.ret t.id none)).pollPending t
  | some v => do
    let e ← (e.note (.ret t.id (some v))).sendValue t v
    e.pollReady { t with snd := false }

/-- Store a run level. -/
def setRunLevel (e : Exec V) (node : NodeId) (level : NodeRunLevel) : Exec V :=
  { e with nodes := e.nodes.modify node fun nd => { nd with runLevel := level } }

def runLevel (e : Exec V) (node : NodeId) : Option NodeRunLevel := e.nodes[node]?.map (·.runLevel)

/-- `Executor::push_new_node`. -/
def pushNewNode (e : Exec V) : Except Panic (NodeId × Exec V) :=
  if e.finalStopped then .error .nodeSpawnDuringShutdown
  else .ok (e.nodes.length, { e with nodes := e.nodes ++ [⟨.running, ∅⟩] })

/-- `TaskHandle::poll` of a handle that has not resolved: `some (some v)` is `Ok(v)`, `some none` is
`TaskAborted`. -/
def pollHandle (e : Exec V) (id : Id) : Option (Option V) :=
  match e.chan id with
  | .empty | .closed => none
  | .value v => some (some v)
  | .canceled => some none

def closeHandle (e : Exec V) (id : Id) : Exec V := e.setChan id .closed

end Exec

end Refault
