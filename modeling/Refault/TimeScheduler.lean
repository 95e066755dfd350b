import Refault.Lib.KeyedQueue
import Refault.Basic

/-!
# Refault.TimeScheduler — `Sleep` and the clock's queue

`TimeScheduler` is the struct of that name, with the cells of the `Sleep`s that exist (by the address of their
storage) and a log.  The priority queue is any `KeyedQueue`.  `wait_until_next_future_ready` is cut at the
turns of its loop: `advanceTo` is what it does before the loop, `wakeNext` is one turn; what a waker does when
it is called is not in this module.
-/

namespace Refault

/-- A waker: of a task, or one made by the user. -/
inductive Waker
  | task (id : Id)
  | custom (n : ℕ)
deriving DecidableEq

inductive TimeFutureState
  | init (t : Instant)
  | waiting (w : Waker)
  | done (t : Instant)
  | taken
deriving DecidableEq

/-- `Sleep`; `deadline` is the argument of `Sleep::new` and is read by no function. -/
structure Sleep where
  deadline : Instant
  state : TimeFutureState
deriving DecidableEq

/-- What is observed of `Sleep`s; a poll with its waker and result, `none` is `Poll::Pending`. -/
inductive SleepObs
  | new (loc : Loc) (deadline : Instant)
  | poll (loc : Loc) (w : Waker) (r : Option Instant)
  | drop (loc : Loc)
  | wake (loc : Loc) (w : Waker)
deriving DecidableEq

structure TimeScheduler (Q : Type) where
  upcomingEvents : Q
  now : Instant
  sleeps : Loc → Option Sleep
  log : List SleepObs

namespace TimeScheduler

variable {Q : Type} [KeyedQueue Q Loc Instant]

/-- `TimeScheduler::new` at the time `clock_gettime` gives. -/
def new (now : Instant) : TimeScheduler Q where
  upcomingEvents := KeyedQueue.empty
  now := now
  sleeps _ := none
  log := []

def setState (ts : TimeScheduler Q) (loc : Loc) (deadline : Instant) (st : TimeFutureState) : TimeScheduler Q :=
  { ts with sleeps := Function.update ts.sleeps loc (some ⟨deadline, st⟩) }

def note (ts : TimeScheduler Q) (o : SleepObs) : TimeScheduler Q := { ts with log := ts.log ++ [o] }

/-- `Sleep::new`, the storage at `loc`. -/
def newSleep (ts : TimeScheduler Q) (loc : Loc) (deadline : Instant) : TimeScheduler Q :=
  (ts.setState loc deadline (.init deadline)).note (.new loc deadline)

/-- `Sleep::poll` on a cell in state `st`. -/
def pollState (ts : TimeScheduler Q) (loc : Loc) (deadline : Instant) (w : Waker) :
    TimeFutureState → Except Panic (TimeScheduler Q)
  | .init t =>
    -- the cell keeps `Taken` here
    if t ≤ ts.now then .ok ((ts.setState loc deadline .taken).note (.poll loc w (some t)))
    else
      .ok ({ ts.setState loc deadline (.waiting w) with
        upcomingEvents := KeyedQueue.push ts.upcomingEvents loc t }.note (.poll loc w none))
  | .waiting _ => .ok ((ts.setState loc deadline (.waiting w)).note (.poll loc w none))
  | .done t => .ok ((ts.setState loc deadline (.done t)).note (.poll loc w (some t)))
  | .taken => .error .sleepTaken

/-- `PinnedDrop for Sleep`. -/
def dropSleep (ts : TimeScheduler Q) (loc : Loc) : TimeScheduler Q :=
  { ts with
    upcomingEvents := KeyedQueue.remove ts.upcomingEvents loc
    sleeps := Function.update ts.sleeps loc none
    log := ts.log ++ [.drop loc] }

/-- `self.now = next.0`. -/
def advanceTo (ts : TimeScheduler Q) (next : Instant) : TimeScheduler Q := { ts with now := next }

/-- One turn of the `while let` of `wait_until_next_future_ready`: the waker it calls, if an entry is due. -/
def wakeNext (ts : TimeScheduler Q) : Except Panic (Option Waker × TimeScheduler Q) :=
  match KeyedQueue.popIf ts.upcomingEvents (fun t => decide (t ≤ ts.now)) with
  | none => .ok (none, ts)
  | some ((loc, t), q) =>
    match ts.sleeps loc with
    | some ⟨deadline, .waiting w⟩ =>
      .ok (some w, ({ ts with upcomingEvents := q }.setState loc deadline (.done t)).note (.wake loc w))
    | _ => .error (.site .wakeLoop)

end TimeScheduler

end Refault
