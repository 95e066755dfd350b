import Mathlib.Data.List.Nodup
import Refault.Executor
import Refault.Lib.Machine

/-!
# Refault.ExecInv — the representation invariant of the executor

`Exec.Inv` ties the six task states, the queue with its tombstones, the slots and the per-node index together.
The whole content of `tasks` is a function of the states and of the running task (`expected`), so every
operation is followed by following one state.  For each function there is a lemma that says it keeps `Inv`,
and one that says when it can fail: under `Inv` no internal `unwrap`, `assert!` or `unreachable!` is one of
the ways.
-/

namespace Refault

namespace TaskState

/-- The states in which an id is in the ready queue. -/
def queued : TaskState → Bool
  | .ready | .abortedReady | .completeReady => true
  | _ => false

/-- The states in which a task can still be polled. -/
def live : TaskState → Bool
  | .ready | .waiting => true
  | _ => false

/-- The states in which a task has an entry in `tasks`. -/
def hasEntry : TaskState → Bool
  | .ready | .waiting | .abortedReady | .completeReady => true
  | _ => false

end TaskState

namespace Exec

variable {V : Type}

/-- The task being polled. -/
def polling (e : Exec V) : Option Id := e.running.map (·.id)

/-- The entry of `id`, from its state and the running task. -/
def expected (e : Exec V) (id : Id) : Option TaskEntry :=
  match e.state id with
  | .ready | .waiting => some ⟨if e.polling = some id then none else some ⟨id, true⟩⟩
  | .abortedReady | .completeReady => some ⟨none⟩
  | .complete | .aborted | .taskEnd => none

structure Inv (e : Exec V) : Prop where
  nodup : e.readyQueue.Nodup
  queued : ∀ id, id ∈ e.readyQueue ↔ (e.state id).queued = true
  tasks_eq : ∀ id, e.tasks id = e.expected id
  running : ∀ t, e.running = some t →
    t.snd = true ∧ (e.state t.id = .waiting ∨ e.state t.id = .ready ∨ e.state t.id = .abortedReady)
  node_tasks : ∀ n nd, e.nodes[n]? = some nd → ∀ id, id ∈ nd.tasks ↔ (e.tasks id).isSome ∧ e.node id = n
  node_lt : ∀ id, e.state id ≠ .taskEnd → e.node id < e.nodes.length
  fresh : ∀ id, e.preNextGlobalId < id → e.state id = .taskEnd
  bound : e.preNextGlobalId < 2 ^ 64

/-- `expected` reads the state and the running task only. -/
theorem expected_congr {e e' : Exec V} {id : Id} (h : e'.state id = e.state id)
    (hp : e'.polling = some id ↔ e.polling = some id) : e'.expected id = e.expected id := by
  unfold expected
  rw [h]
  by_cases h' : e.polling = some id <;> simp [h', hp]

section Facts

variable {e : Exec V} (hI : e.Inv)
include hI

theorem Inv.isSome_iff (id : Id) : (e.tasks id).isSome ↔ (e.state id).hasEntry = true := by
  rw [hI.tasks_eq]
  unfold expected
  cases e.state id <;> simp [TaskState.hasEntry]

/-- The entry of a live task. -/
theorem Inv.tasks_of_live {id : Id} (h : (e.state id).live = true) :
    e.tasks id = some ⟨if e.polling = some id then none else some ⟨id, true⟩⟩ := by
  rw [hI.tasks_eq]
  unfold expected
  cases hs : e.state id <;> simp [hs, TaskState.live] at h ⊢

/-- The entry of a tombstone. -/
theorem Inv.tasks_of_tombstone {id : Id} (h : e.state id = .abortedReady ∨ e.state id = .completeReady) :
    e.tasks id = some ⟨none⟩ := by
  rw [hI.tasks_eq]
  unfold expected
  rcases h with h | h <;> rw [h]

theorem Inv.polling_state {id : Id} (h : e.polling = some id) :
    e.state id = .waiting ∨ e.state id = .ready ∨ e.state id = .abortedReady := by
  unfold polling at h
  obtain ⟨t, ht, rfl⟩ := Option.map_eq_some_iff.mp h
  exact (hI.running t ht).2

/-- A task with an entry is in the index of its node. -/
theorem Inv.mem_node {id : Id} (h : (e.tasks id).isSome) :
    ∃ nd, e.nodes[e.node id]? = some nd ∧ id ∈ nd.tasks := by
  have hne : e.state id ≠ .taskEnd := by
    intro h0
    rw [hI.isSome_iff, h0] at h
    exact absurd h (by decide)
  have hlt := hI.node_lt id hne
  refine ⟨_, List.getElem?_eq_getElem hlt, ?_⟩
  exact (hI.node_tasks _ _ (List.getElem?_eq_getElem hlt) id).mpr ⟨h, rfl⟩

end Facts

/-! ## Removing an entry -/

section Remove

/-- What `remove_task_entry` does where it does not fail. -/
def unlink (e : Exec V) (id : Id) : Exec V :=
  { e.setEntry id none with
    nodes := e.nodes.modify (e.node id) fun nd => { nd with tasks := nd.tasks.erase id } }

theorem removeTaskEntry_ok {e : Exec V} {id : Id} {nd : NodeData} (h : e.tasks id = some ⟨none⟩)
    (hn : e.nodes[e.node id]? = some nd) (hm : id ∈ nd.tasks) : e.removeTaskEntry id = .ok (e.unlink id) := by
  unfold removeTaskEntry
  simp [h, hn, hm, unlink]

theorem unlink_nodes {e : Exec V} {id : Id} {n : NodeId} {nd' : NodeData}
    (h : (e.unlink id).nodes[n]? = some nd') : ∃ nd, e.nodes[n]? = some nd ∧ nd'.runLevel = nd.runLevel ∧
      ∀ j, j ∈ nd'.tasks ↔ j ∈ nd.tasks ∧ (j = id → e.node id ≠ n) := by
  simp only [unlink, List.getElem?_modify] at h
  cases hn : e.nodes[n]? with
  | none => simp [hn] at h
  | some nd =>
    simp only [hn, Option.map_eq_map, Option.map_some, Option.some.injEq] at h
    refine ⟨nd, rfl, ?_⟩
    by_cases hid : e.node id = n
    · rw [if_pos hid] at h
      subst h
      refine ⟨rfl, fun j => ?_⟩
      simp only [Finset.mem_erase]
      constructor
      · rintro ⟨h1, h2⟩; exact ⟨h2, fun h => absurd h h1⟩
      · rintro ⟨h1, h2⟩; exact ⟨fun h => h2 h hid, h1⟩
    · rw [if_neg hid] at h
      subst h
      exact ⟨rfl, fun j => ⟨fun h => ⟨h, fun _ => hid⟩, fun h => h.1⟩⟩

end Remove

/-! ## One task changes -/

/-- `e'` is `e` with the task `id` changed: its state, its entry, its place in the queue and in its node. -/
structure ChangeAt (e e' : Exec V) (id : Id) : Prop where
  state : ∀ j, j ≠ id → e'.state j = e.state j
  node : ∀ j, e'.node j = e.node j
  mem : ∀ j, j ≠ id → (j ∈ e'.readyQueue ↔ j ∈ e.readyQueue)
  tasks : ∀ j, j ≠ id → e'.tasks j = e.tasks j
  polling : ∀ j, j ≠ id → (e'.polling = some j ↔ e.polling = some j)
  nodes : ∀ n nd', e'.nodes[n]? = some nd' → ∃ nd, e.nodes[n]? = some nd ∧ nd'.runLevel = nd.runLevel ∧
    ∀ j, j ∈ nd'.tasks ↔ j ∈ nd.tasks ∧ (j = id → e.node id = n → (e'.tasks id).isSome)
  length : e'.nodes.length = e.nodes.length
  next : e'.preNextGlobalId = e.preNextGlobalId

/-- A changed task whose own facts hold again keeps the invariant. -/
theorem Inv.change {e e' : Exec V} {id : Id} (hI : e.Inv) (hc : ChangeAt e e' id) (hent : (e.tasks id).isSome)
    (hq : e'.readyQueue.Nodup) (hmem : id ∈ e'.readyQueue ↔ (e'.state id).queued = true)
    (htask : e'.tasks id = e'.expected id) (hend : e'.state id ≠ .taskEnd)
    (hrun : ∀ t, e'.running = some t →
      t.snd = true ∧ (e'.state t.id = .waiting ∨ e'.state t.id = .ready ∨ e'.state t.id = .abortedReady)) :
      e'.Inv where
  nodup := hq
  queued j := by
    by_cases h : j = id
    · subst h; exact hmem
    · rw [hc.mem j h, hc.state j h]; exact hI.queued j
  tasks_eq j := by
    by_cases h : j = id
    · subst h; exact htask
    · rw [hc.tasks j h, hI.tasks_eq j]
      exact (expected_congr (hc.state j h) (hc.polling j h)).symm
  running := hrun
  node_tasks n nd' hn j := by
    obtain ⟨nd, hnd, -, hiff⟩ := hc.nodes n nd' hn
    rw [hiff j, hI.node_tasks n nd hnd j, hc.node j]
    by_cases h : j = id
    · subst h
      simp only [hent, true_and, true_implies]
      constructor
      · rintro ⟨h1, h2⟩; exact ⟨h2 h1, h1⟩
      · rintro ⟨h1, h2⟩; exact ⟨h2, fun _ => h1⟩
    · rw [hc.tasks j h]
      simp [h]
  node_lt j hj := by
    rw [hc.node j, hc.length]
    by_cases h : j = id
    · subst h
      refine hI.node_lt j fun h0 => ?_
      rw [hI.isSome_iff, h0] at hent
      exact absurd hent (by decide)
    · exact hI.node_lt j (by rw [← hc.state j h]; exact hj)
  fresh j hj := by
    rw [hc.next] at hj
    by_cases h : j = id
    · subst h
      rw [hI.isSome_iff, hI.fresh j hj] at hent
      exact absurd hent (by decide)
    · rw [hc.state j h]; exact hI.fresh j hj
  bound := hc.next ▸ hI.bound

/-- The invariant does not read the run levels, the stop flag, the channels and the log. -/
theorem Inv.congr {e e' : Exec V} (hI : e.Inv) (hq : e'.readyQueue = e.readyQueue) (hs : e'.shared = e.shared)
    (ht : e'.tasks = e.tasks) (hr : e'.running = e.running) (hp : e.preNextGlobalId ≤ e'.preNextGlobalId)
    (hb : e'.preNextGlobalId < 2 ^ 64)
    (hn : ∀ (n : NodeId) (nd' : NodeData), e'.nodes[n]? = some nd' →
      ∃ nd, e.nodes[n]? = some nd ∧ nd'.tasks = nd.tasks)
    (hlen : e'.nodes.length = e.nodes.length) : e'.Inv where
  nodup := hq ▸ hI.nodup
  queued j := by rw [hq, state, hs]; exact hI.queued j
  tasks_eq j := by
    rw [ht, hI.tasks_eq j]
    refine (expected_congr (by simp only [state, hs]) ?_).symm
    simp only [polling, hr]
  running t h := by simp only [state, hs]; exact hI.running t (hr ▸ h)
  node_tasks n nd' h j := by
    obtain ⟨nd, hnd, he⟩ := hn n nd' h
    rw [he, ht, node, hs]
    exact hI.node_tasks n nd hnd j
  node_lt j hj := by rw [hlen, node, hs]; exact hI.node_lt j (by simpa only [state, hs] using hj)
  fresh j hj := by simp only [state, hs]; exact hI.fresh j (by omega)
  bound := hb

theorem Inv.note {e : Exec V} (hI : e.Inv) (o : Obs V) : (e.note o).Inv :=
  hI.congr rfl rfl rfl rfl le_rfl hI.bound (fun _ nd h => ⟨nd, h, rfl⟩) rfl

theorem inv_new : (Exec.new : Exec V).Inv where
  nodup := List.nodup_nil
  queued j := by simp [Exec.new, state, TaskState.queued]
  tasks_eq j := by simp [Exec.new, expected, state]
  running t h := by simp [Exec.new] at h
  node_tasks n nd h j := by
    simp only [Exec.new, List.getElem?_singleton] at h
    split_ifs at h
    cases h
    simp [Exec.new]
  node_lt j h := absurd rfl h
  fresh _ _ := rfl
  bound := by simp [Exec.new]

theorem Inv.setRunLevel {e : Exec V} (hI : e.Inv) (node : NodeId) (level : NodeRunLevel) :
    (e.setRunLevel node level).Inv := by
  refine hI.congr rfl rfl rfl rfl le_rfl hI.bound (fun n nd' h => ?_) (by simp [Exec.setRunLevel])
  simp only [Exec.setRunLevel, List.getElem?_modify] at h
  cases hn : e.nodes[n]? with
  | none => simp [hn] at h
  | some nd =>
    simp only [hn, Option.map_eq_map, Option.map_some, Option.some.injEq] at h
    subst h
    exact ⟨nd, rfl, by split_ifs <;> rfl⟩

/-! ## The operations -/

section Wake

/-- A wake fails only on an id no task has. -/
theorem wakeByRef_ok {e : Exec V} {id : Id} (h : e.state id ≠ .taskEnd) : ∃ e', e.wakeByRef id = .ok e' := by
  unfold wakeByRef
  cases hs : e.state id <;> simp [hs] at h ⊢

end Wake

section Spawn

/-- The counter is the last id: a new id is the next number. -/
theorem newId_eq {n : ℕ} {id : Id} (hn : n < 2 ^ 64) (h : newId n = .ok id) : id = n + 1 ∧ id < 2 ^ 64 := by
  unfold newId at h
  simp only at h
  split_ifs at h with h0
  cases h
  by_cases hlt : n + 1 < 2 ^ 64
  · rw [Nat.mod_eq_of_lt hlt]; exact ⟨rfl, hlt⟩
  · have : n + 1 = 2 ^ 64 := by omega
    rw [this, Nat.mod_self] at h0
    exact absurd rfl h0

theorem newId_panic {n : ℕ} (hn : n < 2 ^ 64) {p : Panic} :
    newId n = .error p ↔ n + 1 = 2 ^ 64 ∧ p = .idsExhausted := by
  unfold newId
  by_cases h : n + 1 < 2 ^ 64
  · rw [Nat.mod_eq_of_lt h]
    exact ⟨fun h' => (by cases h'), fun h' => absurd h'.1 h.ne⟩
  · have h' : n + 1 = 2 ^ 64 := by omega
    rw [h', Nat.mod_self]
    simp [eq_comm]

theorem state_insertTask (e : Exec V) (node : NodeId) (id j : Id) :
    (e.insertTask node id).state j = if j = id then .waiting else e.state j := by
  unfold insertTask state
  by_cases h : j = id
  · subst h; simp
  · simp [h]

theorem node_insertTask (e : Exec V) (node : NodeId) (id j : Id) :
    (e.insertTask node id).node j = if j = id then node else e.node j := by
  unfold insertTask Exec.node
  by_cases h : j = id
  · subst h; simp
  · simp [h]

theorem nodes_insertTask {e : Exec V} {node n : NodeId} {id : Id} {nd' : NodeData}
    (h : (e.insertTask node id).nodes[n]? = some nd') :
    ∃ nd, e.nodes[n]? = some nd ∧ nd'.runLevel = nd.runLevel ∧
      ∀ j, j ∈ nd'.tasks ↔ j ∈ nd.tasks ∨ (j = id ∧ n = node) := by
  simp only [insertTask, List.getElem?_modify] at h
  cases hn : e.nodes[n]? with
  | none => simp [hn] at h
  | some nd =>
    simp only [hn, Option.map_eq_map, Option.map_some, Option.some.injEq] at h
    refine ⟨nd, rfl, ?_⟩
    by_cases hid : node = n
    · rw [if_pos hid] at h
      subst h hid
      exact ⟨rfl, fun j => by simp [or_comm]⟩
    · rw [if_neg hid] at h
      subst h
      exact ⟨rfl, fun j => by simp [Ne.symm hid]⟩

theorem insertTask_inv {e : Exec V} {node : NodeId} (hI : e.Inv) (hn : node < e.nodes.length)
    (hlt : e.preNextGlobalId + 1 < 2 ^ 64) : (e.insertTask node (e.preNextGlobalId + 1)).Inv := by
  set id := e.preNextGlobalId + 1 with hid
  have hfresh : e.state id = .taskEnd := hI.fresh id (by omega)
  have hnone : e.tasks id = none := by
    have := hI.isSome_iff id
    rw [hfresh] at this
    simpa [TaskState.hasEntry] using this
  have hpoll : e.polling ≠ some id := fun h => by
    have := hI.polling_state h
    rw [hfresh] at this
    simp at this
  have htasks : ∀ j, (e.insertTask node id).tasks j = if j = id then some ⟨some ⟨id, true⟩⟩ else e.tasks j := by
    intro j
    unfold insertTask
    by_cases h : j = id
    · subst h; simp
    · simp [h]
  refine
    { nodup := hI.nodup
      queued := fun j => ?_
      tasks_eq := fun j => ?_
      running := fun t ht => ⟨(hI.running t ht).1, ?_⟩
      node_tasks := fun n nd' h j => ?_
      node_lt := fun j hj => ?_
      fresh := fun j hj => ?_
      bound := hlt }
  · rw [state_insertTask]
    show j ∈ e.readyQueue ↔ _
    by_cases h : j = id
    · subst h
      rw [hI.queued, hfresh]
      simp [TaskState.queued]
    · rw [if_neg h]; exact hI.queued j
  · rw [htasks]
    by_cases h : j = id
    · subst h
      have hp : (e.insertTask node id).polling = e.polling := rfl
      simp [expected, state_insertTask, hp, hpoll]
    · rw [if_neg h, hI.tasks_eq j]
      have hst : (e.insertTask node id).state j = e.state j := by rw [state_insertTask, if_neg h]
      exact (expected_congr hst Iff.rfl).symm
  · have hne : t.id ≠ id := fun h => hpoll (by rw [polling, show e.running = some t from ht, ← h]; rfl)
    rw [state_insertTask, if_neg hne]
    exact (hI.running t ht).2
  · obtain ⟨nd, hnd, -, hiff⟩ := nodes_insertTask h
    rw [hiff j, hI.node_tasks n nd hnd j, htasks, node_insertTask]
    by_cases h : j = id
    · subst h; simp [hnone, eq_comm]
    · simp [h]
  · rw [node_insertTask]
    simp only [insertTask, List.length_modify]
    by_cases h : j = id
    · rw [if_pos h]; exact hn
    · rw [if_neg h]
      rw [state_insertTask, if_neg h] at hj
      exact hI.node_lt j hj
  · have hj' : id < j := hj
    rw [state_insertTask, if_neg (Nat.ne_of_gt hj')]
    exact hI.fresh j (Nat.lt_of_succ_lt hj')

/-- What `spawn` does: it needs a running node and an unused id. -/
theorem spawn_eq {e e' : Exec V} {node : NodeId} {id : Id} (hI : e.Inv) (h : e.spawn node = .ok (id, e')) :
    e.runLevel node = some .running ∧ id = e.preNextGlobalId + 1 ∧ id < 2 ^ 64 ∧
      (e.insertTask node id).wakeByRef id = .ok e' := by
  unfold spawn at h
  split at h
  · cases h
  · rename_i nd hnd
    split at h <;> try cases h
    rename_i hrl
    obtain ⟨id', hid, h⟩ := Except.bind_eq_ok_iff.mp h
    obtain ⟨e₁, he₁, h⟩ := Except.bind_eq_ok_iff.mp h
    cases h
    obtain ⟨h1, h2⟩ := newId_eq hI.bound hid
    exact ⟨by simp [runLevel, hnd, hrl], h1, h2, he₁⟩

/-- `spawn` fails in the ways it documents only. -/
theorem spawn_error {e : Exec V} {node : NodeId} {p : Panic} (h : e.spawn node = .error p) :
    p = .nodeIndex node ∨ p = .nodeIsStopped node ∨ p = .idsExhausted := by
  unfold spawn at h
  split at h
  · cases h; exact Or.inl rfl
  · split at h
    · cases h; exact Or.inr (Or.inl rfl)
    · cases h; exact Or.inr (Or.inl rfl)
    · rcases Except.bind_eq_error_iff.mp h with h | ⟨id, -, h⟩
      · unfold newId at h
        simp only at h
        split_ifs at h
        cases h; exact Or.inr (Or.inr rfl)
      · have hst : (e.insertTask node id).state id ≠ .taskEnd := by rw [state_insertTask]; simp
        obtain ⟨e', he'⟩ := wakeByRef_ok hst
        rw [he'] at h
        cases h

end Spawn

end Exec

end Refault
