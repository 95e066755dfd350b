import Refault.EventHandler
import Refault.Step

/-!
# Refault.Divergence — the panics of a validated run

Under `ValidatingEventHandler` the runtime panics where a run diverges from the record, inside `with_cx`; a
spawn on a stopped node panics there too.  What the panic destroys on its way out of the runtime is read off
the frames: a frame drops the values that it owns (`owning`), and `with_cx` drops the `RefMut` of the context
after the frame of its closure (`withCx`).  `validate` is the part of a step up to its event, in the words of
the source; `validate_iff` says that it panics exactly where `step` has an event that is not the recorded one.
-/

namespace Refault

variable {V Q : Type}

/-- A user future that a frame of the runtime owns. -/
inductive Owned
  /-- taken from the slot of a task -/
  | task (id : Id)
  /-- the future to be spawned -/
  | argument
deriving DecidableEq

inductive Local
  | future (f : Owned)
  /-- `RefMut` of `SimCx::context` -/
  | refMut
deriving DecidableEq

inductive RuntimePanic
  | diverged (event : Event) (p : CheckPanic)
  | exec (p : Panic)
deriving DecidableEq

/-- A panic, the cell where it begins, and the values that the frames it leaves have owned, innermost first. -/
structure Raised where
  panic : RuntimePanic
  cell : CxCell
  locals : List Local
deriving DecidableEq

/-- The futures that are destroyed, each with the cell at that time. -/
def destroyedIn : CxCell → List Local → List (Owned × CxCell)
  | _, [] => []
  | cell, .future f :: locals => (f, cell) :: destroyedIn cell locals
  | _, .refMut :: locals => destroyedIn .free locals

def Raised.destroyed (x : Raised) : List (Owned × CxCell) := destroyedIn x.cell x.locals

section Frames

variable {A : Type}

def raise (cell : CxCell) (p : RuntimePanic) : Except Raised A := .error ⟨p, cell, []⟩

/-- A frame that owns `f`. -/
def owning (f : Owned) (body : Except Raised A) : Except Raised A :=
  body.mapError fun x => { x with locals := x.locals ++ [.future f] }

/-- `SimCx::with_cx` and `SimCxl::with`. -/
def withCx (cell : CxCell) (body : CxCell → Except Raised A) : Except Raised A :=
  match cell with
  | .free => (body .borrowed).mapError fun x => { x with locals := x.locals ++ [.refMut] }
  | .borrowed => raise .borrowed (.exec .alreadyBorrowed)
  | .taken => raise .taken (.exec .contextMissing)

/-- A call into the executor. -/
def inExecutor (cell : CxCell) (x : Except Panic A) : Except Raised A := x.mapError fun p => ⟨.exec p, cell, []⟩

end Frames

namespace SimCx

section Functions

variable (r : List Event) (s : SimCx V Q)

/-- `event_handler.handle_event(event)`, on the record `r`. -/
def handleEvent (cell : CxCell) (event : Event) : Except Raised Unit :=
  match EventHandler.handleEvent (⟨r, s.events.length⟩ : ValidatingEventHandler) event with
  | .ok _ => .ok ()
  | .error p => raise cell (.diverged event p)

/-- `spawn_task_on_node`: the closure owns the future, then `Executor::spawn` does. -/
def spawnValidated (node : NodeId) : Except Raised Unit :=
  withCx s.cell fun cell => do
    owning .argument (s.handleEvent r cell .taskSpawned)
    let _ ← owning .argument (inExecutor cell (s.ex.spawn node))
    pure ()

/-- `create_node`, up to the simulators. -/
def createNodeValidated : Except Raised Unit :=
  withCx s.cell fun cell => do
    let (id, _) ← inExecutor cell s.ex.pushNewNode
    s.handleEvent r cell (.nodeSpawned id)

/-- The pop of `run_current_context`: the future is taken before the event. -/
def popValidated : Except Raised Unit :=
  withCx s.cell fun cell =>
    if s.ex.finalStopped then .ok ()
    else
      match s.ex.readyQueue with
      | [] => .ok ()
      | id :: queue => do
        let (task, _) ← inExecutor cell ((s.ex.setQueue queue).popped id)
        match task with
        | none => pure ()
        | some t => owning (.task t.id) (s.handleEvent r cell (.taskRun id))

variable [KeyedQueue Q Loc Instant]

/-- `wait_until_next_future_ready`, up to its loop. -/
def waitValidated : Except Raised Unit :=
  withCx s.cell fun cell =>
    match KeyedQueue.peek s.ts.upcomingEvents with
    | none => .ok ()
    | some (_, next) => s.handleEvent r cell (.timeAdvanced (next.durationSince s.ts.now))

/-- A step on the record `r`, up to its event. -/
def validate : Label V → Except Raised Unit
  | .user op =>
    match op, s.stack with
    | .spawn node, _ => s.spawnValidated r node
    | .done _, .init :: _ => s.spawnValidated r s.currentNode
    | .createNode, _ => s.createNodeValidated r
    | _, _ => .ok ()
  | .run _ =>
    match s.stack with
    | .loop :: _ => do
      s.popValidated r
      if s.ex.finalStopped = true ∨ s.ex.readyQueue = [] then s.waitValidated r
    | _ => .ok ()

end Functions

/-! ## The record -/

section Record

variable {r : List Event} {s s' : SimCx V Q} {l : Label V} {cell : CxCell}

theorem handleEvent_eq (event : Event) : s.handleEvent r cell event =
    if r[s.events.length]? = some event then .ok () else
      .error ⟨.diverged event (match r[s.events.length]? with
        | none => .noFurtherEvents event
        | some expected => .validationFailed s.events.length expected event), cell, []⟩ := by
  unfold handleEvent raise
  simp only [EventHandler.handleEvent]
  cases h : r[s.events.length]? with
  | none => simp
  | some expected =>
    by_cases heq : event = expected
    · simp [heq]
    · simp [heq, Ne.symm heq]

theorem mapError_ok {E E' A : Type} {x : Except E A} {f : E → E'} {a : A} : x.mapError f = .ok a ↔ x = .ok a := by
  cases x <;> simp [Except.mapError]

theorem mapError_error {E E' A : Type} {x : Except E A} {f : E → E'} {e : E'} :
    x.mapError f = .error e ↔ ∃ e₀, x = .error e₀ ∧ f e₀ = e := by
  cases x <;> simp [Except.mapError]

theorem withCx_free {A : Type} {body : CxCell → Except Raised A} {a : A} (hc : s.cell = .free) :
    withCx s.cell body = .ok a ↔ body .borrowed = .ok a := by
  rw [hc]
  exact mapError_ok

theorem handleEvent_ok {event : Event} :
    s.handleEvent r cell event = .ok () ↔ r[s.events.length]? = some event := by
  rw [handleEvent_eq]
  split_ifs with h <;> simp [h]

/-- A step that adds `event`, and a part of it that panics if `event` is not the recorded one. -/
theorem validates_event {x : Except Raised Unit} {event : Event} (hev : s'.events = s.events ++ [event])
    (hx : x = .ok () ↔ r[s.events.length]? = some event) :
    x = .ok () ↔ ∀ e, s'.events = s.events ++ [e] → r[s.events.length]? = some e := by
  rw [hx, hev]
  simp

theorem validates_nothing {x : Except Raised Unit} (hev : s'.events = s.events) (hx : x = .ok ()) :
    x = .ok () ↔ ∀ e, s'.events = s.events ++ [e] → r[s.events.length]? = some e := by
  refine ⟨fun _ e he => ?_, fun _ => hx⟩
  rw [hev] at he
  simp at he

theorem spawnValidated_ok {node : NodeId} {id : Id} (h : s.spawnTaskOnNode node = .ok (id, s')) :
    s.spawnValidated r node = .ok () ↔ ∀ e, s'.events = s.events ++ [e] → r[s.events.length]? = some e := by
  obtain ⟨hc, h⟩ := borrow_bind.mp h
  obtain ⟨⟨id', e⟩, he, h⟩ := call_bind.mp h
  cases h
  refine validates_event rfl ?_
  unfold spawnValidated
  have hevent : s.handleEvent r .borrowed .taskSpawned = .ok () ↔ _ := handleEvent_ok
  rw [withCx_free hc, he, ← hevent]
  cases s.handleEvent r .borrowed .taskSpawned <;>
    simp [owning, inExecutor, Except.mapError, bind, Except.bind, pure, Except.pure]

variable [KeyedQueue Q Loc Instant] {b : SimBuilder}

theorem runLoop_validated {rest : List (Frame V)} {order : List Id} (hk : s.stack = .loop :: rest)
    (h : s.runLoop rest = .ok s') :
    s.validate r (.run order) = .ok () ↔ ∀ e, s'.events = s.events ++ [e] → r[s.events.length]? = some e := by
  obtain ⟨hc, h⟩ := borrow_bind.mp h
  have hval : s.validate r (.run order) = (do
      s.popValidated r
      if s.ex.finalStopped = true ∨ s.ex.readyQueue = [] then s.waitValidated r) := by
    unfold validate
    rw [hk]
  rw [hval]
  by_cases hidle : s.ex.finalStopped = true ∨ s.ex.readyQueue = []
  · -- nothing is popped, and the time goes on
    have hpop : s.popValidated r = .ok () := by
      unfold popValidated
      rw [withCx_free hc]
      rcases hidle with hf | hq
      · rw [if_pos hf]
      · split_ifs
        · rfl
        · rw [hq]
    have hrun : s.idle rest = .ok s' := by
      split_ifs at h with hf
      · exact h
      · rw [hidle.resolve_left hf] at h
        exact h
    rw [hpop, if_pos hidle]
    change s.waitValidated r = .ok () ↔ _
    unfold idle at hrun
    unfold waitValidated
    cases hp : KeyedQueue.peek s.ts.upcomingEvents with
    | none =>
      rw [hp] at hrun
      cases hrun
      exact validates_nothing rfl ((withCx_free hc).mpr rfl)
    | some x =>
      obtain ⟨loc, next⟩ := x
      rw [hp] at hrun
      simp only at hrun
      split at hrun
      · cases hrun
      · cases hrun
        refine validates_event rfl ?_
        rw [withCx_free hc]
        exact handleEvent_ok
  · rw [if_neg hidle]
    push Not at hidle
    obtain ⟨hf, hq⟩ := hidle
    obtain ⟨id, queue, hq⟩ := List.exists_cons_of_ne_nil hq
    rw [if_neg hf, hq] at h
    obtain ⟨⟨task, e⟩, he, h⟩ := call_bind.mp h
    have hpop : (s.popValidated r >>= fun _ => (pure () : Except Raised Unit)) = s.popValidated r := by
      cases s.popValidated r <;> rfl
    change (s.popValidated r >>= fun _ => (pure () : Except Raised Unit)) = .ok () ↔ _
    rw [hpop]
    unfold popValidated
    rw [withCx_free hc, if_neg hf, hq]
    simp only [he, inExecutor]
    cases task with
    | none =>
      cases h
      exact validates_nothing rfl rfl
    | some t =>
      cases h
      refine validates_event rfl ?_
      exact mapError_ok.trans handleEvent_ok

/-- **The record is followed**: a step validates if and only if its event, should it have one, is the next of
the record. -/
theorem validate_iff (hr : Reachable b s) (h : s.step l = .ok s') :
    s.validate r l = .ok () ↔ ∀ e, s'.events = s.events ++ [e] → r[s.events.length]? = some e := by
  have hnext := step_next hr.base h
  cases l with
  | run order =>
    cases hk : s.stack with
    | nil =>
      simp only [step, runtime, hk] at h
      cases h
    | cons f rest =>
      by_cases hf : f = .loop
      · subst hf
        simp only [step, runtime, hk] at h
        exact runLoop_validated hk h
      · refine validates_nothing ?_ (by unfold validate; rw [hk]; cases f <;> first | rfl | exact absurd rfl hf)
        cases hnext with
        | poll order rest' id q hk' => rw [hk] at hk'; cases hk'; exact absurd rfl hf
        | advance order rest' loc next time hk' => rw [hk] at hk'; cases hk'; exact absurd rfl hf
        | _ => rfl
  | user op =>
    cases hk : s.stack with
    | nil =>
      simp only [step, hk] at h
      cases h
    | cons f rest =>
      simp only [step, hk] at h
      split_ifs at h with hf
      cases op with
      | spawn node =>
        obtain ⟨⟨id, s₁⟩, h, h'⟩ := Except.bind_eq_ok_iff.mp h
        cases h'
        exact spawnValidated_ok h
      | createNode =>
        obtain ⟨hc, h⟩ := borrow_bind.mp h
        obtain ⟨⟨id, e⟩, he, h⟩ := call_bind.mp h
        cases h
        refine validates_event rfl ?_
        unfold validate createNodeValidated
        rw [withCx_free hc, he]
        exact handleEvent_ok
      | done v =>
        by_cases hi : f = .init
        · subst hi
          simp only [userOp, done, hk] at h
          obtain ⟨⟨id, s₁⟩, h₁, h₂⟩ := Except.bind_eq_ok_iff.mp h
          cases h₂
          have hspawn := spawnValidated_ok (r := r) h₁
          unfold validate
          rw [hk]
          exact hspawn
        · refine validates_nothing ?_ (by unfold validate; rw [hk]; cases f <;> first | rfl | exact absurd rfl hi)
          cases hnext with
          | doneInit _ rest' id hk' => rw [hk] at hk'; cases hk'; exact absurd rfl hi
          | _ => rfl
      | _ => exact validates_nothing (by cases hnext <;> rfl) (by unfold validate; rw [hk])

end Record

/-! ## What is destroyed -/

section Destroyed

variable {r : List Event} {s : SimCx V Q} {l : Label V} {x : Raised}

/-- The panics of a run that diverges, and of a spawn on a stopped node. -/
inductive Reported : RuntimePanic → Prop
  | diverged (event : Event) (p : CheckPanic) : Reported (.diverged event p)
  | nodeIsStopped (node : NodeId) : Reported (.exec (.nodeIsStopped node))

/-- A panic in the closure of `with_cx` leaves it with what the frames there have owned, and the `RefMut`
after that. -/
theorem withCx_error {A : Type} {cell : CxCell} {body : CxCell → Except Raised A} (h : withCx cell body = .error x)
    (hp : Reported x.panic) : ∃ x₀, body .borrowed = .error x₀ ∧
    x = { x₀ with locals := x₀.locals ++ [.refMut] } := by
  cases cell with
  | free =>
    obtain ⟨x₀, h₀, rfl⟩ := mapError_error.mp h
    exact ⟨x₀, h₀, rfl⟩
  | borrowed => cases h; cases hp
  | taken => cases h; cases hp

theorem handleEvent_error {cell : CxCell} {event : Event} (h : s.handleEvent r cell event = .error x) :
    x.cell = cell ∧ x.locals = [] := by
  rw [handleEvent_eq] at h
  split_ifs at h
  cases h
  exact ⟨rfl, rfl⟩

theorem owning_error {A : Type} {f : Owned} {body : Except Raised A} (h : owning f body = .error x) :
    ∃ x₀, body = .error x₀ ∧ x = { x₀ with locals := x₀.locals ++ [.future f] } := by
  obtain ⟨x₀, h₀, rfl⟩ := mapError_error.mp h
  exact ⟨x₀, h₀, rfl⟩

theorem inExecutor_error {A : Type} {cell : CxCell} {y : Except Panic A} (h : inExecutor cell y = .error x) :
    x.cell = cell ∧ x.locals = [] ∧ ∃ p, y = .error p ∧ x.panic = .exec p := by
  obtain ⟨p, h₀, rfl⟩ := mapError_error.mp h
  exact ⟨rfl, rfl, p, h₀, rfl⟩

/-- A spawn that panics destroys its future under the borrow. -/
theorem spawnValidated_error {node : NodeId} (h : s.spawnValidated r node = .error x) (hp : Reported x.panic) :
    x.destroyed = [(.argument, .borrowed)] := by
  obtain ⟨x₀, h₀, rfl⟩ := withCx_error h hp
  have howned : ∀ {A : Type} {y : Except Raised A}, (∀ z, y = .error z → z.cell = .borrowed ∧ z.locals = []) →
      owning .argument y = .error x₀ → x₀.cell = .borrowed ∧ x₀.locals = [.future .argument] := by
    intro A y hy hx
    obtain ⟨z, hz, rfl⟩ := owning_error hx
    obtain ⟨h1, h2⟩ := hy z hz
    exact ⟨h1, by simp [h2]⟩
  have hx : x₀.cell = .borrowed ∧ x₀.locals = [.future .argument] := by
    rcases Except.bind_eq_error_iff.mp h₀ with h₁ | ⟨-, -, h₁⟩
    · exact howned (fun z => handleEvent_error) h₁
    · rcases Except.bind_eq_error_iff.mp h₁ with h₂ | ⟨-, -, h₂⟩
      · exact howned (fun z hz => ⟨(inExecutor_error hz).1, (inExecutor_error hz).2.1⟩) h₂
      · cases h₂
  unfold Raised.destroyed
  rw [hx.1]
  simp [hx.2, destroyedIn]

/-- Nor has `create_node` a future to destroy. -/
theorem createNodeValidated_error (h : s.createNodeValidated r = .error x) (hp : Reported x.panic) :
    x.destroyed = [] := by
  obtain ⟨x₀, h₀, rfl⟩ := withCx_error h hp
  have hx : x₀.locals = [] := by
    rcases Except.bind_eq_error_iff.mp h₀ with h₁ | ⟨y, -, h₁⟩
    · exact (inExecutor_error h₁).2.1
    · exact (handleEvent_error h₁).2
  simp [Raised.destroyed, hx, destroyedIn]

theorem popped_error {e : Exec V} {id : Id} {p : Panic} (h : e.popped id = .error p) : ∃ site, p = .site site := by
  have hremove : ∀ {e : Exec V} {o : Option Task}, (e.removeTaskEntry id >>= fun e => pure (o, e)) = .error p →
      ∃ site, p = .site site := by
    intro e o h
    rcases Except.bind_eq_error_iff.mp h with h₁ | ⟨e', -, h₁⟩
    · unfold Exec.removeTaskEntry at h₁
      split at h₁
      · cases h₁; exact ⟨_, rfl⟩
      · split_ifs at h₁
        · cases h₁; exact ⟨_, rfl⟩
        · split at h₁
          · cases h₁; exact ⟨_, rfl⟩
          · split_ifs at h₁
            cases h₁; exact ⟨_, rfl⟩
    · cases h₁
  unfold Exec.popped at h
  split at h
  · cases h; exact ⟨_, rfl⟩
  · split at h
    · split at h
      · cases h; exact ⟨_, rfl⟩
      · cases h
    · exact hremove h
    · exact hremove h
    all_goals cases h; exact ⟨_, rfl⟩

/-- Where `s` pops a task that is to run, the future of the task is destroyed under the borrow. -/
theorem popValidated_error (h : s.popValidated r = .error x) (hp : Reported x.panic) :
    ∃ id, x.destroyed = [(.task id, .borrowed)] := by
  obtain ⟨x₀, h₀, rfl⟩ := withCx_error h hp
  split_ifs at h₀
  split at h₀
  · cases h₀
  · rcases Except.bind_eq_error_iff.mp h₀ with h₁ | ⟨⟨task, e⟩, -, h₁⟩
    · -- the assertions of the pop report nothing
      obtain ⟨-, -, p, hpop, hx⟩ := inExecutor_error h₁
      obtain ⟨site, rfl⟩ := popped_error hpop
      rw [show ({ x₀ with locals := x₀.locals ++ [.refMut] } : Raised).panic = .exec (.site site) from hx] at hp
      cases hp
    · cases task with
      | none => cases h₁
      | some t =>
        obtain ⟨z, hz, rfl⟩ := owning_error h₁
        obtain ⟨h1, h2⟩ := handleEvent_error hz
        exact ⟨t.id, by simp [Raised.destroyed, h1, h2, destroyedIn]⟩

variable [KeyedQueue Q Loc Instant]

theorem waitValidated_error (h : s.waitValidated r = .error x) (hp : Reported x.panic) : x.destroyed = [] := by
  obtain ⟨x₀, h₀, rfl⟩ := withCx_error h hp
  split at h₀
  · cases h₀
  · simp [Raised.destroyed, (handleEvent_error h₀).2, destroyedIn]

/-- The panic comes from `create_node`, or from the executor when there is nothing to pop. -/
def HasNoFuture (s : SimCx V Q) (l : Label V) : Prop :=
  l = .user .createNode ∨ ∃ order, l = .run order ∧ (s.ex.finalStopped = true ∨ s.ex.readyQueue = [])

/-- **A report of the runtime leaves the borrow before it destroys a future only where it destroys none.**  In
every state, on every record: when a step panics since its event diverges from the record, or since it spawns
on a stopped node, the user futures that this panic destroys in the runtime are destroyed while the context is
not borrowed if and only if the step creates a node or advances the time; every other step destroys a future,
and under the borrow. -/
theorem destroys_unborrowed_iff (h : s.validate r l = .error x) (hp : Reported x.panic) :
    ((∀ d ∈ x.destroyed, d.2 ≠ .borrowed) ↔ s.HasNoFuture l) ∧
      (¬ s.HasNoFuture l → ∃ f, x.destroyed = [(f, .borrowed)]) := by
  have hborrowed : ∀ {f : Owned}, x.destroyed = [(f, .borrowed)] → ¬ s.HasNoFuture l →
      ((∀ d ∈ x.destroyed, d.2 ≠ .borrowed) ↔ s.HasNoFuture l) ∧
        (¬ s.HasNoFuture l → ∃ f, x.destroyed = [(f, .borrowed)]) := by
    intro f hx hno
    refine ⟨iff_of_false (fun hall => ?_) hno, fun _ => ⟨f, hx⟩⟩
    exact hall (f, .borrowed) (by simp [hx]) rfl
  have hnone : x.destroyed = [] → s.HasNoFuture l →
      ((∀ d ∈ x.destroyed, d.2 ≠ .borrowed) ↔ s.HasNoFuture l) ∧
        (¬ s.HasNoFuture l → ∃ f, x.destroyed = [(f, .borrowed)]) := by
    intro hx hyes
    exact ⟨iff_of_true (by simp [hx]) hyes, fun hno => absurd hyes hno⟩
  unfold validate at h
  split at h
  · split at h
    · exact hborrowed (spawnValidated_error h hp) (by simp [HasNoFuture])
    · exact hborrowed (spawnValidated_error h hp) (by simp [HasNoFuture])
    · exact hnone (createNodeValidated_error h hp) (Or.inl rfl)
    · cases h
  · next order =>
    split at h
    · by_cases hidle : s.ex.finalStopped = true ∨ s.ex.readyQueue = []
      · refine hnone ?_ (Or.inr ⟨order, rfl, hidle⟩)
        rcases Except.bind_eq_error_iff.mp h with h₁ | ⟨-, -, h₁⟩
        · -- with nothing to pop there is no event
          obtain ⟨x₀, h₀, -⟩ := withCx_error h₁ hp
          split_ifs at h₀ with hf
          rw [hidle.resolve_left hf] at h₀
          cases h₀
        · rw [if_pos hidle] at h₁
          exact waitValidated_error h₁ hp
      · have hno : ¬ s.HasNoFuture (.run order : Label V) := by simpa [HasNoFuture] using hidle
        rcases Except.bind_eq_error_iff.mp h with h₁ | ⟨-, -, h₁⟩
        · obtain ⟨id, hx⟩ := popValidated_error h₁ hp
          exact hborrowed hx hno
        · rw [if_neg hidle] at h₁
          cases h₁
    · cases h

/-- The drop of a `Sleep` panics while the context is borrowed. -/
theorem dropSleep_borrowed {loc : Loc} (hs : s.ts.sleeps loc ≠ none) :
    ({ s with cell := .borrowed } : SimCx V Q).userOp (.dropSleep loc) = .error (.panic .alreadyBorrowed) := by
  simp only [userOp, hs, if_false]
  rfl

/-- The root is polled. -/
def polledRun : List (Label ℕ) := [.user (.done none), .run []]

/-- The events of `polledRun`. -/
def polledEvents : List Event := [.taskSpawned, .taskRun 1]

/-- The root creates a node that the recorded run has not created: the panic destroys no future. -/
theorem destroys_unborrowed_iff_create :
    ∃ (s : ArraySim) (x : Raised), Machine.run step (install epoch) polledRun = .ok s ∧
    s.validate polledEvents (.user .createNode) = .error x ∧
    x.panic = .diverged (.nodeSpawned 1) (.noFurtherEvents (.nodeSpawned 1)) ∧
    ∀ d ∈ x.destroyed, d.2 ≠ .borrowed := by
  obtain ⟨s, hs, hq⟩ : ∃ s : ArraySim, Machine.run step (install epoch) polledRun = .ok s ∧
      s.validate polledEvents (.user .createNode) =
        .error ⟨.diverged (.nodeSpawned 1) (.noFurtherEvents (.nodeSpawned 1)), .borrowed, [.refMut]⟩ :=
    Machine.exists_of_run rfl
  exact ⟨s, _, hs, hq, rfl, (destroys_unborrowed_iff hq (.diverged _ _)).1.mpr (Or.inl rfl)⟩

/-- The root owns a `Sleep` and is to be polled again, which the recorded run has not done. -/
def polledAgainRun : List (Label ℕ) :=
  polledRun ++ [.user (.newSleep 0 ⟨1, 0, by decide, by decide, nanosPerSec_pos⟩), .user (.wake 1),
    .user (.done none)]

/-- The panic destroys the root under the borrow, and with it the `Sleep`, which panics in turn. -/
theorem diverged_root_under_borrow : ∃ (s : ArraySim) (x : Raised),
    Machine.run step (install epoch) polledAgainRun = .ok s ∧ s.events = polledEvents ∧
    s.validate polledEvents (.run []) = .error x ∧
    x.panic = .diverged (.taskRun 1) (.noFurtherEvents (.taskRun 1)) ∧ x.destroyed = [(.task 1, .borrowed)] ∧
    ({ s with cell := .borrowed } : ArraySim).userOp (.dropSleep 0) = .error (.panic .alreadyBorrowed) := by
  obtain ⟨s, hs, hq⟩ : ∃ s : ArraySim, Machine.run step (install epoch) polledAgainRun = .ok s ∧
      (s.events, s.validate polledEvents (.run []), (s.ts.sleeps 0).isSome) = (polledEvents,
        .error ⟨.diverged (.taskRun 1) (.noFurtherEvents (.taskRun 1)), .borrowed,
            [.future (.task 1), .refMut]⟩, true) :=
    Machine.exists_of_run rfl
  simp only [Prod.mk.injEq] at hq
  obtain ⟨hev, hval, hsl⟩ := hq
  exact ⟨s, _, hs, hev, hval, rfl, rfl, dropSleep_borrowed (Option.isSome_iff_ne_none.mp hsl)⟩

end Destroyed

end SimCx

end Refault
