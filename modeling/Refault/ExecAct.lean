import Refault.ExecInv

/-!
# Refault.ExecAct — what one step can do to the executor

`Act e e'` lists, once, every change the runtime makes to the executor between two points where user code or
the main loop may do something else: one constructor for each case, with its guard and the whole new state.
`Act.inv` says that all of them keep `Exec.Inv`.  The lemmas `popped_spec`, `abort_spec` and `pollEnd_spec`
say that under `Inv` the functions of `Refault.Executor` succeed and do one of these; everything proved about
runs is by cases on `Act`.
-/

namespace Refault

namespace Exec

variable {V : Type}

/-- What `abort_local` does to a live task. -/
def abortAt (e : Exec V) (id : Id) : Exec V :=
  match e.state id with
  | .waiting => ((e.setState id .abortedReady).pushReady id).setEntry id (some ⟨none⟩)
  | _ => (e.setState id .abortedReady).setEntry id (some ⟨none⟩)

/-- A future that has not sent its value is dropped. -/
def dropUnsent (e : Exec V) (id : Id) (borrowed : Bool) : Exec V :=
  (e.setChan id .canceled).note (.drop id borrowed)

/-- The queue's head is taken out of its slot to be polled. -/
def takeHead (e : Exec V) (id : Id) (q : List Id) : Exec V :=
  ((((e.setQueue q).setEntry id (some ⟨none⟩)).setState id .waiting).note (.poll id)).setRunning (some ⟨id, true⟩)

/-- The queue's head is a tombstone and goes. -/
def clearHead (e : Exec V) (id : Id) (q : List Id) (st : TaskState) : Exec V :=
  ((e.setQueue q).setState id st).unlink id

/-- A poll of `id` ends with `Poll::Ready(v)`, up to the match on the state. -/
def sent (e : Exec V) (id : Id) (v : V) : Exec V := (e.note (.ret id (some v))).setChan id (.value v)

inductive Act (e : Exec V) : Exec V → Prop
  | spawn (node : NodeId) (id : Id) (hrun : e.runLevel node = some .running) (hid : id = e.preNextGlobalId + 1)
      (hlt : id < 2 ^ 64) :
      Act e ((((e.insertTask node id).note (.wake id)).setState id .ready).pushReady id)
  | wakeIdle (id : Id) (hs : e.state id ≠ .waiting) (hend : e.state id ≠ .taskEnd) : Act e (e.note (.wake id))
  | wake (id : Id) (hs : e.state id = .waiting) : Act e (((e.note (.wake id)).setState id .ready).pushReady id)
  | abortIdle (id : Id) (hs : (e.state id).live = false) : Act e (e.note (.abort id))
  | abortPolled (id : Id) (hs : (e.state id).live = true) (hp : e.polling = some id) :
      Act e ((e.note (.abort id)).abortAt id)
  | abort (id : Id) (hs : (e.state id).live = true) (hp : e.polling ≠ some id) :
      Act e (((e.note (.abort id)).abortAt id).dropUnsent id false)
  | poll (id : Id) (q : List Id) (hq : e.readyQueue = id :: q) (hs : e.state id = .ready) (hr : e.running = none)
      (hf : e.finalStopped = false) : Act e (e.takeHead id q)
  | clear (id : Id) (q : List Id) (st : TaskState) (hq : e.readyQueue = id :: q)
      (hs : e.state id = .completeReady ∧ st = .complete ∨ e.state id = .abortedReady ∧ st = .aborted)
      (hr : e.running = none) (hf : e.finalStopped = false) : Act e (e.clearHead id q st)
  | pending (id : Id) (hr : e.running = some ⟨id, true⟩) (hs : (e.state id).live = true) :
      Act e (((e.note (.ret id none)).setEntry id (some ⟨some ⟨id, true⟩⟩)).setRunning none)
  | pendingAborted (id : Id) (hr : e.running = some ⟨id, true⟩) (hs : e.state id = .abortedReady) :
      Act e (((e.note (.ret id none)).setRunning none).dropUnsent id true)
  | ready (id : Id) (v : V) (hr : e.running = some ⟨id, true⟩) (hs : e.state id = .waiting) :
      Act e (((((e.sent id v).setState id .complete).unlink id).setRunning none).note (.drop id true))
  | readyQueued (id : Id) (v : V) (hr : e.running = some ⟨id, true⟩)
      (hs : e.state id = .ready ∨ e.state id = .abortedReady) :
      Act e ((((e.sent id v).setState id .completeReady).setRunning none).note (.drop id true))
  | stop (node : NodeId) (level : NodeRunLevel) (hrun : e.runLevel node = some .running) (hl : level ≠ .running) :
      Act e ((e.setRunLevel node level).note (.stop node))
  | finalize (node : NodeId) (hrun : e.runLevel node ≠ some .running) : Act e (e.setRunLevel node .finalStopped)
  | start (node : NodeId) (hrun : e.runLevel node = some .stopped) : Act e (e.setRunLevel node .running)
  | pushNode (hf : e.finalStopped = false) : Act e { e with nodes := e.nodes ++ [⟨.running, ∅⟩] }
  | finalStop : Act e { e with finalStopped := true }
  | rootReady (v : V) (id : Id) (hr : e.running = some ⟨id, true⟩) :
      Act e { e.note (.rootReady v) with finalStopped := true }
  | newId (id : Id) (hid : id = e.preNextGlobalId + 1) (hlt : id < 2 ^ 64) : Act e { e with preNextGlobalId := id }
  | joined (id : Id) (r : Option V) (hr : e.pollHandle id = some r) :
      Act e ((e.closeHandle id).note (.joined id r))
  | exhausted (hq : e.finalStopped = true ∨ e.readyQueue = []) : Act e (e.note .exhausted)
  | callback (sim : SimTy) (cb : Callback) (node : NodeId) : Act e (e.note (.callback sim cb node))

/-- The acts of calls that put no frame on the stack. -/
inductive Quiet (e : Exec V) : Exec V → Prop
  | wakeIdle (id : Id) (hs : e.state id ≠ .waiting) (hend : e.state id ≠ .taskEnd) : Quiet e (e.note (.wake id))
  | wake (id : Id) (hs : e.state id = .waiting) : Quiet e (((e.note (.wake id)).setState id .ready).pushReady id)
  | abortIdle (id : Id) (hs : (e.state id).live = false) : Quiet e (e.note (.abort id))
  | abortPolled (id : Id) (hs : (e.state id).live = true) (hp : e.polling = some id) :
      Quiet e ((e.note (.abort id)).abortAt id)
  | newId (id : Id) (hid : id = e.preNextGlobalId + 1) (hlt : id < 2 ^ 64) :
      Quiet e { e with preNextGlobalId := id }
  | joined (id : Id) (r : Option V) (hr : e.pollHandle id = some r) :
      Quiet e ((e.closeHandle id).note (.joined id r))

/-! ## The pieces -/

section Pieces

variable (e : Exec V) (id j : Id)

@[simp] theorem state_abortAt : (e.abortAt id).state j = if j = id then .abortedReady else e.state j := by
  unfold abortAt
  cases e.state id <;> simp

@[simp] theorem node_abortAt : (e.abortAt id).node j = e.node j := by
  unfold abortAt
  cases e.state id <;> simp

@[simp] theorem tasks_abortAt : (e.abortAt id).tasks = Function.update e.tasks id (some ⟨none⟩) := by
  unfold abortAt
  cases e.state id <;> rfl

@[simp] theorem running_abortAt : (e.abortAt id).running = e.running := by
  unfold abortAt
  cases e.state id <;> rfl

@[simp] theorem nodes_abortAt : (e.abortAt id).nodes = e.nodes := by
  unfold abortAt
  cases e.state id <;> rfl

@[simp] theorem chan_abortAt : (e.abortAt id).chan = e.chan := by
  unfold abortAt
  cases e.state id <;> rfl

@[simp] theorem log_abortAt : (e.abortAt id).log = e.log := by
  unfold abortAt
  cases e.state id <;> rfl

@[simp] theorem finalStopped_abortAt : (e.abortAt id).finalStopped = e.finalStopped := by
  unfold abortAt
  cases e.state id <;> rfl

@[simp] theorem preNextGlobalId_abortAt : (e.abortAt id).preNextGlobalId = e.preNextGlobalId := by
  unfold abortAt
  cases e.state id <;> rfl

theorem readyQueue_abortAt : (e.abortAt id).readyQueue =
    if e.state id = .waiting then e.readyQueue ++ [id] else e.readyQueue := by
  unfold abortAt
  cases e.state id <;> rfl

@[simp] theorem state_unlink : (e.unlink id).state j = e.state j := rfl
@[simp] theorem node_unlink : (e.unlink id).node j = e.node j := rfl
@[simp] theorem tasks_unlink : (e.unlink id).tasks = Function.update e.tasks id none := rfl
@[simp] theorem readyQueue_unlink : (e.unlink id).readyQueue = e.readyQueue := rfl
@[simp] theorem running_unlink : (e.unlink id).running = e.running := rfl
@[simp] theorem chan_unlink : (e.unlink id).chan = e.chan := rfl
@[simp] theorem log_unlink : (e.unlink id).log = e.log := rfl
@[simp] theorem finalStopped_unlink : (e.unlink id).finalStopped = e.finalStopped := rfl
@[simp] theorem preNextGlobalId_unlink : (e.unlink id).preNextGlobalId = e.preNextGlobalId := rfl
@[simp] theorem length_unlink : (e.unlink id).nodes.length = e.nodes.length := List.length_modify ..

end Pieces

section Quiet

variable {e e' : Exec V}

theorem Quiet.act (h : Quiet e e') : Act e e' := by
  cases h with
  | wakeIdle id hs hend => exact .wakeIdle id hs hend
  | wake id hs => exact .wake id hs
  | abortIdle id hs => exact .abortIdle id hs
  | abortPolled id hs hp => exact .abortPolled id hs hp
  | newId id hid hlt => exact .newId id hid hlt
  | joined id r hr => exact .joined id r hr

theorem Quiet.running (h : Quiet e e') : e'.running = e.running := by
  cases h with
  | abortPolled id hs hp => simp
  | _ => rfl

theorem wakeByRef_quiet {id : Id} (h : e.wakeByRef id = .ok e') : Quiet e e' := by
  unfold wakeByRef at h
  split at h
  case h_6 hs => cases h; exact .wake id hs
  case h_7 => cases h
  all_goals
    cases h
    rename_i hs
    exact .wakeIdle id (by rw [hs]; decide) (by rw [hs]; decide)

end Quiet

/-! ## The invariant -/

section Inv

variable {e : Exec V} (hI : e.Inv)
include hI

/-- A live task: how its state, its slot and the queue look. -/
theorem Inv.hasEntry_of_live {id : Id} (h : (e.state id).live = true) : (e.tasks id).isSome := by
  rw [hI.tasks_of_live h]; rfl

theorem Inv.wake {id : Id} (hs : e.state id = .waiting) :
    (((e.note (.wake id)).setState id .ready).pushReady id).Inv := by
  have hent : (e.tasks id).isSome := hI.hasEntry_of_live (by rw [hs]; rfl)
  have hnot : id ∉ e.readyQueue := by rw [hI.queued, hs]; decide
  have hc : ChangeAt e (((e.note (.wake id)).setState id .ready).pushReady id) id :=
    { state := fun j hj => by simp [hj]
      node := fun j => by simp
      mem := fun j hj => by simp [hj]
      tasks := fun _ _ => rfl
      polling := fun _ _ => Iff.rfl
      nodes := fun n nd h => ⟨nd, h, rfl, fun j => by simp [hent]⟩
      length := rfl
      next := rfl }
  refine hI.change hc hent ?_ (by simp [TaskState.queued]) ?_ (by simp) fun t ht => ⟨(hI.running t ht).1, ?_⟩
  · exact List.nodup_append.mpr ⟨hI.nodup, by simp, fun a ha b hb => by
      simp at hb; subst hb; exact fun h => hnot (h ▸ ha)⟩
  · show e.tasks id = _
    rw [hI.tasks_eq]
    simp [expected, hs, polling]
  · by_cases hj : t.id = id
    · rw [hj]; simp
    · rw [hc.state _ hj]; exact (hI.running t ht).2

theorem Inv.abortAt {id : Id} (hs : (e.state id).live = true) : (e.abortAt id).Inv := by
  have hent : (e.tasks id).isSome := hI.hasEntry_of_live hs
  have hc : ChangeAt e (e.abortAt id) id :=
    { state := fun j hj => by simp [hj]
      node := fun j => by simp
      mem := fun j hj => by rw [readyQueue_abortAt]; split_ifs <;> simp [hj]
      tasks := fun j hj => by simp [hj]
      polling := fun j _ => by simp [polling]
      nodes := fun n nd h => ⟨nd, by simpa using h, rfl, fun j => by simp⟩
      length := by simp
      next := by simp }
  have hq : e.state id = .waiting → id ∉ e.readyQueue := by
    intro h; rw [hI.queued, h]; decide
  refine hI.change hc hent ?_ ?_ ?_ (by simp) fun t ht => ?_
  · rw [readyQueue_abortAt]
    split_ifs with hw
    · exact List.nodup_append.mpr ⟨hI.nodup, by simp, fun a ha b hb => by
        simp at hb; subst hb; exact fun h => hq hw (h ▸ ha)⟩
    · exact hI.nodup
  · rw [readyQueue_abortAt]
    simp only [state_abortAt, if_true, TaskState.queued, iff_true]
    split_ifs with hw
    · simp
    · rw [hI.queued]
      cases hst : e.state id <;> simp [hst, TaskState.live, TaskState.queued] at hs hw ⊢
  · simp [expected]
  · rw [running_abortAt] at ht
    refine ⟨(hI.running t ht).1, ?_⟩
    rw [state_abortAt]
    split_ifs
    · simp
    · exact (hI.running t ht).2

theorem Inv.takeHead {id : Id} {q : List Id} (hq : e.readyQueue = id :: q) (hs : e.state id = .ready)
    (hr : e.running = none) : (e.takeHead id q).Inv := by
  have hent : (e.tasks id).isSome := hI.hasEntry_of_live (by rw [hs]; rfl)
  have hnd : (id :: q).Nodup := hq ▸ hI.nodup
  have hc : ChangeAt e (e.takeHead id q) id :=
    { state := fun j hj => by simp [Exec.takeHead, hj]
      node := fun j => by simp [Exec.takeHead]
      mem := fun j hj => by simp [Exec.takeHead, hq, hj]
      tasks := fun j hj => by simp [Exec.takeHead, hj]
      polling := fun j hj => by simp [Exec.takeHead, polling, hr, Ne.symm hj]
      nodes := fun n nd h => ⟨nd, h, rfl, fun j => by simp [Exec.takeHead]⟩
      length := rfl
      next := rfl }
  refine hI.change hc hent (List.nodup_cons.mp hnd).2 ?_ ?_ (by simp [Exec.takeHead]) fun t ht => ?_
  · simpa [Exec.takeHead, TaskState.queued] using (List.nodup_cons.mp hnd).1
  · simp [Exec.takeHead, expected, polling]
  · simp only [Exec.takeHead, setRunning_running, Option.some.injEq] at ht
    subst ht
    simp [Exec.takeHead]

theorem Inv.clearHead {id : Id} {q : List Id} {st : TaskState} (hq : e.readyQueue = id :: q)
    (hs : e.state id = .completeReady ∧ st = .complete ∨ e.state id = .abortedReady ∧ st = .aborted)
    (hr : e.running = none) : (e.clearHead id q st).Inv := by
  have hent : (e.tasks id).isSome := by
    rw [hI.isSome_iff]
    rcases hs with ⟨h, -⟩ | ⟨h, -⟩ <;> rw [h] <;> rfl
  have hst : st.queued = false ∧ st ≠ .taskEnd ∧ st.hasEntry = false := by
    rcases hs with ⟨-, rfl⟩ | ⟨-, rfl⟩ <;> decide
  have hnd : (id :: q).Nodup := hq ▸ hI.nodup
  have hc : ChangeAt e (e.clearHead id q st) id :=
    { state := fun j hj => by simp [Exec.clearHead, hj]
      node := fun j => by simp [Exec.clearHead]
      mem := fun j hj => by simp [Exec.clearHead, hq, hj]
      tasks := fun j hj => by simp [Exec.clearHead, hj]
      polling := fun _ _ => Iff.rfl
      nodes := fun n nd h => by
        obtain ⟨nd', h1, h2, h3⟩ := unlink_nodes h
        exact ⟨nd', h1, h2, fun j => by
          rw [h3]; simp only [node_setState, node_setQueue]; simp [Exec.clearHead]⟩
      length := by simp [Exec.clearHead]
      next := rfl }
  refine hI.change hc hent (List.nodup_cons.mp hnd).2 ?_ ?_ (by simpa [Exec.clearHead] using hst.2.1)
    fun t ht => ?_
  · simpa [Exec.clearHead, hst.1] using (List.nodup_cons.mp hnd).1
  · simp only [Exec.clearHead, expected, tasks_unlink, Function.update_self, state_unlink, state_setState, if_true]
    rcases hs with ⟨-, rfl⟩ | ⟨-, rfl⟩ <;> rfl
  · have : e.running = some t := ht
    rw [hr] at this
    cases this

theorem Inv.putBack {id : Id} (hr : e.running = some ⟨id, true⟩) (hs : (e.state id).live = true) :
    ((e.setEntry id (some ⟨some ⟨id, true⟩⟩)).setRunning none).Inv := by
  have hent : (e.tasks id).isSome := hI.hasEntry_of_live hs
  have hc : ChangeAt e ((e.setEntry id (some ⟨some ⟨id, true⟩⟩)).setRunning none) id :=
    { state := fun _ _ => rfl
      node := fun _ => rfl
      mem := fun _ _ => Iff.rfl
      tasks := fun j hj => by simp [hj]
      polling := fun j hj => by simp [polling, hr, Ne.symm hj]
      nodes := fun n nd h => ⟨nd, h, rfl, fun j => by simp⟩
      length := rfl
      next := rfl }
  refine hI.change hc hent hI.nodup (hI.queued id) ?_ ?_ fun t ht => by simp at ht
  · simp only [expected, state_setRunning, state_setEntry, polling, setRunning_running, Option.map_none]
    cases hst : e.state id <;> simp [hst, TaskState.live] at hs ⊢
  · show e.state id ≠ _
    intro h; rw [h] at hs; exact absurd hs (by decide)

theorem Inv.stopRunning {id : Id} (hr : e.running = some ⟨id, true⟩)
    (hs : (e.state id).live = false) : (e.setRunning none).Inv := by
  have hst : e.state id = .abortedReady := by
    have := (hI.running _ hr).2
    rcases this with h | h | h
    · rw [h] at hs; exact absurd hs (by decide)
    · rw [h] at hs; exact absurd hs (by decide)
    · exact h
  have hent : (e.tasks id).isSome := by rw [hI.isSome_iff, hst]; rfl
  have hc : ChangeAt e (e.setRunning none) id :=
    { state := fun _ _ => rfl
      node := fun _ => rfl
      mem := fun _ _ => Iff.rfl
      tasks := fun _ _ => rfl
      polling := fun j hj => by simp [polling, hr, Ne.symm hj]
      nodes := fun n nd h => ⟨nd, h, rfl, fun j => by simp [hent]⟩
      length := rfl
      next := rfl }
  refine hI.change hc hent hI.nodup (hI.queued id) ?_ ?_ fun t ht => by simp at ht
  · show e.tasks id = _
    rw [hI.tasks_of_tombstone (Or.inl hst)]
    simp [expected, hst]
  · show e.state id ≠ _
    rw [hst]; decide

theorem Inv.complete {id : Id} (hr : e.running = some ⟨id, true⟩) (hs : e.state id = .waiting) :
    (((e.setState id .complete).unlink id).setRunning none).Inv := by
  have hent : (e.tasks id).isSome := hI.hasEntry_of_live (by rw [hs]; rfl)
  have hc : ChangeAt e (((e.setState id .complete).unlink id).setRunning none) id :=
    { state := fun j hj => by simp [hj]
      node := fun j => by simp
      mem := fun _ _ => Iff.rfl
      tasks := fun j hj => by simp [hj]
      polling := fun j hj => by simp [polling, hr, Ne.symm hj]
      nodes := fun n nd h => by
        obtain ⟨nd', h1, h2, h3⟩ := unlink_nodes h
        exact ⟨nd', h1, h2, fun j => by rw [h3]; simp⟩
      length := by simp
      next := rfl }
  refine hI.change hc hent hI.nodup ?_ ?_ (by simp) fun t ht => by simp at ht
  · show id ∈ e.readyQueue ↔ _
    rw [hI.queued, hs]
    simp [TaskState.queued]
  · simp [expected]

theorem Inv.completeQueued {id : Id} (hr : e.running = some ⟨id, true⟩)
    (hs : e.state id = .ready ∨ e.state id = .abortedReady) :
    ((e.setState id .completeReady).setRunning none).Inv := by
  have hent : (e.tasks id).isSome := by
    rw [hI.isSome_iff]
    rcases hs with h | h <;> rw [h] <;> rfl
  have hc : ChangeAt e ((e.setState id .completeReady).setRunning none) id :=
    { state := fun j hj => by simp [hj]
      node := fun j => by simp
      mem := fun _ _ => Iff.rfl
      tasks := fun _ _ => rfl
      polling := fun j hj => by simp [polling, hr, Ne.symm hj]
      nodes := fun n nd h => ⟨nd, h, rfl, fun j => by simp [hent]⟩
      length := rfl
      next := rfl }
  have hp : e.polling = some id := by rw [polling, hr]; rfl
  refine hI.change hc hent hI.nodup ?_ ?_ (by simp) fun t ht => by simp at ht
  · show id ∈ e.readyQueue ↔ _
    rw [hI.queued]
    rcases hs with h | h <;> simp [h, TaskState.queued]
  · show e.tasks id = _
    rw [hI.tasks_eq]
    rcases hs with h | h <;> simp [expected, h, hp]

theorem Inv.setChan (id : Id) (c : OneShot V) : (e.setChan id c).Inv :=
  hI.congr rfl rfl rfl rfl le_rfl hI.bound (fun _ nd h => ⟨nd, h, rfl⟩) rfl

theorem Inv.dropUnsent (id : Id) (b : Bool) : (e.dropUnsent id b).Inv := (hI.setChan id _).note _

theorem Inv.setFinalStopped (b : Bool) : ({ e with finalStopped := b } : Exec V).Inv :=
  hI.congr rfl rfl rfl rfl le_rfl hI.bound (fun _ nd h => ⟨nd, h, rfl⟩) rfl

theorem Inv.setNext {id : Id} (hid : id = e.preNextGlobalId + 1) (hlt : id < 2 ^ 64) :
    ({ e with preNextGlobalId := id } : Exec V).Inv :=
  hI.congr rfl rfl rfl rfl (hid ▸ Nat.le_succ _) hlt (fun _ nd h => ⟨nd, h, rfl⟩) rfl

theorem Inv.pushNode : ({ e with nodes := e.nodes ++ [⟨.running, ∅⟩] } : Exec V).Inv where
  nodup := hI.nodup
  queued := hI.queued
  tasks_eq := hI.tasks_eq
  running := hI.running
  node_tasks n nd h j := by
    show _ ↔ (e.tasks j).isSome ∧ e.node j = n
    have hlt : (e.tasks j).isSome → e.node j < e.nodes.length := by
      intro hj
      refine hI.node_lt j fun h0 => ?_
      rw [hI.isSome_iff, h0] at hj
      exact absurd hj (by decide)
    rcases Nat.lt_or_ge n e.nodes.length with hn | hn
    · rw [List.getElem?_append_left hn] at h
      exact hI.node_tasks n nd h j
    · rw [List.getElem?_append_right hn, List.getElem?_singleton] at h
      split_ifs at h
      cases h
      simp only [Finset.notMem_empty, false_iff, not_and]
      exact fun hj h0 => Nat.not_lt.mpr hn (h0 ▸ hlt hj)
  node_lt j hj := by
    show e.node j < (e.nodes ++ [_]).length
    rw [List.length_append]
    exact Nat.lt_add_right _ (hI.node_lt j hj)
  fresh := hI.fresh
  bound := hI.bound

end Inv

theorem length_of_runLevel {e : Exec V} {node : NodeId} {l : NodeRunLevel} (h : e.runLevel node = some l) :
    node < e.nodes.length := by
  obtain ⟨nd, hnd, -⟩ := Option.map_eq_some_iff.mp h
  exact (List.getElem?_eq_some_iff.mp hnd).1

/-- **Every act keeps the invariant.** -/
theorem Act.inv {e e' : Exec V} (h : Act e e') (hI : e.Inv) : e'.Inv := by
  cases h with
  | spawn node id hrun hid hlt =>
    subst hid
    exact (insertTask_inv hI (length_of_runLevel hrun) hlt).wake (by rw [state_insertTask, if_pos rfl])
  | wakeIdle id => exact hI.note _
  | wake id hs => exact hI.wake hs
  | abortIdle id => exact hI.note _
  | abortPolled id hs hp => exact (hI.note _).abortAt hs
  | abort id hs hp => exact ((hI.note _).abortAt hs).dropUnsent _ _
  | poll id q hq hs hr hf => exact hI.takeHead hq hs hr
  | clear id q st hq hs hr hf => exact hI.clearHead hq hs hr
  | pending id hr hs => exact (hI.note _).putBack hr hs
  | pendingAborted id hr hs =>
    exact ((hI.note _).stopRunning hr (by rw [state_note, hs]; rfl)).dropUnsent _ _
  | ready id v hr hs => exact (((hI.note _).setChan _ _).complete hr hs).note _
  | readyQueued id v hr hs => exact (((hI.note _).setChan _ _).completeQueued hr hs).note _
  | stop node level hrun hl => exact (hI.setRunLevel _ _).note _
  | finalize node hrun => exact hI.setRunLevel _ _
  | start node hrun => exact hI.setRunLevel _ _
  | pushNode hf => exact hI.pushNode
  | finalStop => exact hI.setFinalStopped _
  | rootReady v id hr => exact (hI.note _).setFinalStopped _
  | newId id hid hlt => exact hI.setNext hid hlt
  | joined id r hr => exact (hI.setChan _ _).note _
  | exhausted hq => exact hI.note _
  | callback sim cb node => exact hI.note _

/-! ## The functions of the executor act -/

section Spec

variable {e : Exec V}

theorem wakeByRef_act {e' : Exec V} {id : Id} (h : e.wakeByRef id = .ok e') : Act e e' := (wakeByRef_quiet h).act

variable (hI : e.Inv)
include hI

theorem spawn_act {e' : Exec V} {node : NodeId} {id : Id} (h : e.spawn node = .ok (id, e')) :
    id = e.preNextGlobalId + 1 ∧ e' = (((e.insertTask node id).note (.wake id)).setState id .ready).pushReady id ∧
      Act e e' := by
  obtain ⟨hrun, hid, hlt, hw⟩ := spawn_eq hI h
  have he' : e' = (((e.insertTask node id).note (.wake id)).setState id .ready).pushReady id := by
    unfold wakeByRef at hw
    rw [state_insertTask, if_pos rfl] at hw
    cases hw; rfl
  exact ⟨hid, he', he' ▸ .spawn node id hrun hid hlt⟩

/-- `abort` on a task that was spawned: nothing, or the task loses its future now, or the one being polled will. -/
theorem abort_spec {id : Id} (hend : e.state id ≠ .taskEnd) :
    (e.state id).live = false ∧ e.abort id = .ok (none, e.note (.abort id)) ∨
    (e.state id).live = true ∧ e.polling = some id ∧ e.abort id = .ok (none, (e.note (.abort id)).abortAt id) ∨
    (e.state id).live = true ∧ e.polling ≠ some id ∧
      e.abort id = .ok (some ⟨id, true⟩, ((e.note (.abort id)).abortAt id).dropUnsent id false) := by
  by_cases hl : (e.state id).live = true
  · have ht : (e.note (.abort id)).tasks id = some ⟨if e.polling = some id then none else some ⟨id, true⟩⟩ :=
      hI.tasks_of_live hl
    have habort : (e.note (.abort id)).abortLocal id =
        .ok (if e.polling = some id then none else some ⟨id, true⟩, (e.note (.abort id)).abortAt id) := by
      unfold abortLocal abortAt
      rw [ht]
      simp only [state_note]
      cases hs : e.state id <;> simp [hs, TaskState.live] at hl ⊢
    right
    by_cases hp : e.polling = some id
    · refine Or.inl ⟨hl, hp, ?_⟩
      rw [if_pos hp] at habort
      show (e.note (.abort id)).abortLocal id >>= _ = _
      rw [habort]; rfl
    · refine Or.inr ⟨hl, hp, ?_⟩
      rw [if_neg hp] at habort
      show (e.note (.abort id)).abortLocal id >>= _ = _
      rw [habort]; rfl
  · have hl' : (e.state id).live = false := by simpa using hl
    refine Or.inl ⟨hl', ?_⟩
    have habort : (e.note (.abort id)).abortLocal id = .ok (none, e.note (.abort id)) := by
      unfold abortLocal
      cases hs : e.state id <;> simp [hs, TaskState.live] at hl' hend
      all_goals
        simp only [state_note, hs]
        split <;> rfl
    show (e.note (.abort id)).abortLocal id >>= _ = _
    rw [habort]; rfl

/-- The pop finds a live task or a tombstone, and both have what they need. -/
theorem popped_spec {id : Id} {q : List Id} (hq : e.readyQueue = id :: q) (hr : e.running = none) :
    e.state id = .ready ∧ (e.setQueue q).popped id = .ok (some ⟨id, true⟩, e.takeHead id q) ∨
    ∃ st, (e.state id = .completeReady ∧ st = .complete ∨ e.state id = .abortedReady ∧ st = .aborted) ∧
      (e.setQueue q).popped id = .ok (none, e.clearHead id q st) := by
  have hque : (e.state id).queued = true := by rw [← hI.queued, hq]; exact List.mem_cons_self
  have htomb : ∀ st st', e.state id = st → (st = .completeReady ∨ st = .abortedReady) →
      (((e.setQueue q).setState id st').removeTaskEntry id) = .ok (e.clearHead id q st') := by
    intro st st' hst hcase
    have htasks : e.tasks id = some ⟨none⟩ := hI.tasks_of_tombstone (by rw [hst]; exact hcase.symm)
    have hent : (e.tasks id).isSome := by rw [htasks]; rfl
    obtain ⟨nd, hnd, hmem⟩ := hI.mem_node hent
    exact removeTaskEntry_ok htasks (by simpa using hnd) hmem
  cases hs : e.state id <;> simp [hs, TaskState.queued] at hque
  case ready =>
    refine Or.inl ⟨rfl, ?_⟩
    have hp : e.polling = none := by rw [polling, hr]; rfl
    have ht : (e.setQueue q).tasks id = some ⟨some ⟨id, true⟩⟩ := by
      have hlive : (e.state id).live = true := by rw [hs]; rfl
      have := hI.tasks_of_live hlive
      rw [hp] at this
      exact this
    unfold popped
    rw [ht]
    simp [hs, takeHead]
  case completeReady =>
    refine Or.inr ⟨.complete, Or.inl ⟨rfl, rfl⟩, ?_⟩
    have ht : (e.setQueue q).tasks id = some ⟨none⟩ := hI.tasks_of_tombstone (Or.inr hs)
    unfold popped
    rw [ht]
    simp only [state_setQueue, hs]
    rw [htomb _ .complete hs (Or.inl rfl)]
    rfl
  case abortedReady =>
    refine Or.inr ⟨.aborted, Or.inr ⟨rfl, rfl⟩, ?_⟩
    have ht : (e.setQueue q).tasks id = some ⟨none⟩ := hI.tasks_of_tombstone (Or.inl hs)
    unfold popped
    rw [ht]
    simp only [state_setQueue, hs]
    rw [htomb _ .aborted hs (Or.inr rfl)]
    rfl

/-- The end of a poll that returns `Poll::Pending`. -/
theorem pollEnd_pending {id : Id} (hr : e.running = some ⟨id, true⟩) :
    (e.state id).live = true ∧ e.pollEnd ⟨id, true⟩ none =
      .ok (none, ((e.note (.ret id none)).setEntry id (some ⟨some ⟨id, true⟩⟩)).setRunning none) ∨
    e.state id = .abortedReady ∧ e.pollEnd ⟨id, true⟩ none =
      .ok (some ⟨id, true⟩, ((e.note (.ret id none)).setRunning none).dropUnsent id true) := by
  have hp : e.polling = some id := by rw [polling, hr]; rfl
  have hlive : (e.state id).live = true → (e.note (.ret id none)).tasks id = some ⟨none⟩ := by
    intro h
    have := hI.tasks_of_live h
    rwa [if_pos hp] at this
  rcases (hI.running _ hr).2 with h | h | h <;> simp only at h
  · refine Or.inl ⟨by rw [h]; rfl, ?_⟩
    unfold pollEnd pollPending
    simp only [state_note, h, hlive (by rw [h]; rfl)]
    simp
  · refine Or.inl ⟨by rw [h]; rfl, ?_⟩
    unfold pollEnd pollPending
    simp only [state_note, h, hlive (by rw [h]; rfl)]
    simp
  · refine Or.inr ⟨h, ?_⟩
    unfold pollEnd pollPending
    simp only [state_note, h]
    rfl

/-- The end of a poll that returns `Poll::Ready(v)`. -/
theorem pollEnd_ready {id : Id} (v : V) (hr : e.running = some ⟨id, true⟩) :
    e.state id = .waiting ∧ e.pollEnd ⟨id, true⟩ (some v) =
      .ok (some ⟨id, false⟩, ((((e.sent id v).setState id .complete).unlink id).setRunning none).note
        (.drop id true)) ∨
    (e.state id = .ready ∨ e.state id = .abortedReady) ∧ e.pollEnd ⟨id, true⟩ (some v) =
      .ok (some ⟨id, false⟩, (((e.sent id v).setState id .completeReady).setRunning none).note
        (.drop id true)) := by
  have hp : e.polling = some id := by rw [polling, hr]; rfl
  rcases (hI.running _ hr).2 with h | h | h <;> simp only at h
  · refine Or.inl ⟨h, ?_⟩
    have hlive : (e.state id).live = true := by rw [h]; rfl
    have ht : (e.sent id v).tasks id = some ⟨none⟩ := by
      have := hI.tasks_of_live hlive
      rwa [if_pos hp] at this
    obtain ⟨nd, hnd, hmem⟩ := hI.mem_node (hI.hasEntry_of_live hlive)
    have hrem : ((e.sent id v).setState id .complete).removeTaskEntry id =
        .ok (((e.sent id v).setState id .complete).unlink id) :=
      removeTaskEntry_ok ht (by simpa [sent] using hnd) hmem
    have hst : (e.sent id v).state id = .waiting := h
    show (e.sent id v).pollReady ⟨id, false⟩ = _
    unfold pollReady
    simp only [hst, hrem]
    rfl
  · refine Or.inr ⟨Or.inl h, ?_⟩
    have hst : (e.sent id v).state id = .ready := h
    show (e.sent id v).pollReady ⟨id, false⟩ = _
    unfold pollReady
    simp only [hst]
    rfl
  · refine Or.inr ⟨Or.inr h, ?_⟩
    have hst : (e.sent id v).state id = .abortedReady := h
    show (e.sent id v).pollReady ⟨id, false⟩ = _
    unfold pollReady
    simp only [hst]
    rfl

end Spec

end Exec

end Refault
