import Mathlib.Data.Finset.Basic
import Refault.Lib.Timespec

/-!
# Refault.Basic — ids, states, events and panics

The vocabulary of the runtime.  Every value a function panics with is a `Panic`; the sites that the code
itself declares impossible (`unwrap`, `assert!`, `unreachable!` inside the executor, the time scheduler and
the teardown) are the `Site`s, one for each.
-/

namespace Refault

/-- A unique id; `0` is none of them (`NonZeroU64`). -/
abbrev Id := ℕ

/-- A node, by its index in `Executor::nodes`. -/
abbrev NodeId := ℕ

/-- The node of the root future, `NodeId::INIT`. -/
abbrev initNode : NodeId := 0

/-- The storage address of a `Sleep`. -/
abbrev Loc := ℕ

/-- The `TypeId` of a simulator. -/
abbrev SimTy := ℕ

/-- `std::time::Instant`, exact over the timespec of `clock_gettime`. -/
abbrev Instant := Timespec

/-- The word in `TaskShared::state`; `taskEnd` stands for every word from `TASK_END` on. -/
inductive TaskState
  | completeReady
  | complete
  | abortedReady
  | aborted
  | ready
  | waiting
  | taskEnd
deriving DecidableEq

inductive NodeRunLevel
  | running
  | stopped
  | finalStopped
deriving DecidableEq

/-- `executor.rs`, `time.rs` and `context_install_guard.rs`: where the runtime asserts something about itself. -/
inductive Site
  /-- pop: `tasks.get_mut(&task_id).unwrap()` -/
  | popEntry
  /-- pop: `task_entry.task.take().unwrap()` -/
  | popTask
  /-- pop: the last arm of the match on the state -/
  | popState
  /-- `remove_task_entry`: `removed.unwrap()` -/
  | removeEntry
  /-- `remove_task_entry`: `assert!(task_entry.task.into_inner().is_none())` -/
  | removeTask
  /-- `remove_task_entry`: the index into `nodes` and `debug_assert!(removed)` -/
  | removeNode
  /-- after a pending poll: `tasks.get_mut(&id).unwrap()` -/
  | putBackEntry
  /-- after a pending poll: `assert!(task_entry.task.replace(Some(task)).is_none())` -/
  | putBackTask
  /-- after a pending poll: the last arm of the match on the state -/
  | pendingState
  /-- after a ready poll: the first arm of the match on the state -/
  | readyState
  /-- `Task::run`: `this.snd.take().unwrap()` -/
  | senderTaken
  /-- `wake_by_ref`: `TASK_END..` -/
  | wakeState
  /-- `abort_local`: `TASK_END..` -/
  | abortState
  /-- `wait_until_next_future_ready`: a popped `Sleep` is not waiting -/
  | wakeLoop
  /-- `SimBuilder::run`: `ret2.set(..).ok().unwrap()` -/
  | rootTwice
  /-- `ContextInstallGuard::destroy`: `debug_assert!(cx.current_node() == NodeId::INIT)` -/
  | destroyNode
  /-- `ContextInstallGuard::destroy`: the assertion on the queue -/
  | destroyQueue
deriving DecidableEq

inductive Panic
  | site (s : Site)
  /-- `RefCell` already borrowed: `context.borrow_mut()` -/
  | alreadyBorrowed
  /-- `as_mut().unwrap()` on the context after it was taken -/
  | contextMissing
  /-- index into `Executor::nodes` out of bounds -/
  | nodeIndex (node : NodeId)
  /-- `node {node:?} is stopped` -/
  | nodeIsStopped (node : NodeId)
  /-- `node spawn during simulation shutdown` -/
  | nodeSpawnDuringShutdown
  /-- `cannot start node because simulation is shutting down.` -/
  | startDuringShutdown
  /-- `NonZeroU64::new(0).unwrap()` in `Id::new` -/
  | idsExhausted
  /-- overflow when adding durations -/
  | durationOverflow
  /-- `Sleep::poll` on `TimeFutureState::Taken`: `unreachable!()` -/
  | sleepTaken
  /-- `add_simulator`: a second node exists or the simulation is stopping -/
  | simulatorTooLate
  /-- `add_simulator`: the type is registered already -/
  | simulatorTwice
  /-- `simulator does not exist` -/
  | simulatorMissing
  /-- `simulator already mutably borrowed` -/
  | simulatorBorrowed
  /-- index into `SimCxl::simulators` out of bounds -/
  | simulatorIndex
  /-- the slot a simulator is put back into is not empty -/
  | simulatorSlot
  /-- `for_all_simulators`: the number of simulators changed -/
  | simulatorsChanged
deriving DecidableEq

/-- Why a step is not taken: it is not possible here, or it panics. -/
inductive Halt
  | disabled
  | panic (p : Panic)
deriving DecidableEq

/-- `event::Event`. -/
inductive Event
  | taskRun (id : Id)
  | timeAdvanced (dt : Duration)
  | nodeSpawned (node : NodeId)
  | taskSpawned
deriving DecidableEq

inductive Callback
  | create
  | stop
  | start
deriving DecidableEq

/-- What can be observed of a run, in order: the calls made on tasks, the polls and what they return (`none` is
`Poll::Pending`), the futures the executor drops and whether the context is borrowed then. -/
inductive Obs (V : Type)
  | spawn (id : Id) (node : NodeId)
  | wake (id : Id)
  | abort (id : Id)
  | stop (node : NodeId)
  | poll (id : Id)
  | ret (id : Id) (r : Option V)
  | rootReady (v : V)
  | drop (id : Id) (borrowed : Bool)
  | exhausted
  | joined (id : Id) (r : Option V)
  | callback (sim : SimTy) (cb : Callback) (node : NodeId)
deriving DecidableEq

end Refault
