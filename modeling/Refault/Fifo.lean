import Mathlib.Data.List.Basic
import Refault.Lib.FifoScheduler
import Refault.Borrow
import Refault.Shutdown
import Refault.Invariant

/-!
# Refault.Fifo — the ready queue refines a FIFO list

The log, read by the plain scheduler of `Lib.FifoScheduler`, is accepted: the executor polls what that polls,
and finds its queue exhausted only when that has nothing listed.  The refinement relation says that the list
is the ready queue without its tombstones.
-/

namespace Refault

variable {V : Type}

namespace Obs

/-- What the plain scheduler is told of. -/
def sched : Obs V → Option (FifoScheduler.Event Id)
  | .spawn id _ => some (.spawn id)
  | .wake id => some (.wake id)
  | .abort id => some (.remove id)
  | .ret id (some _) => some (.remove id)
  | .poll id => some (.poll id)
  | .exhausted => some .idle
  | _ => none

theorem eq_poll {o : Obs V} {id : Id} (h : o.sched = some (.poll id)) : o = .poll id := by
  cases o with
  | ret _ v => cases v <;> simp [sched] at h
  | _ => simp_all [sched]

theorem eq_wake {o : Obs V} {id : Id} (h : o.sched = some (.wake id)) : o = .wake id := by
  cases o with
  | ret _ v => cases v <;> simp [sched] at h
  | _ => simp_all [sched]

theorem eq_remove {o : Obs V} {id : Id} (h : o.sched = some (.remove id)) :
    o = .abort id ∨ ∃ v, o = .ret id (some v) := by
  cases o with
  | ret _ v => cases v <;> simp_all [sched]
  | _ => simp_all [sched]

end Obs

/-- The log as the plain scheduler reads it. -/
def schedLog (log : List (Obs V)) : List (FifoScheduler.Event Id) := log.filterMap Obs.sched

namespace Exec

/-- The ready queue without its tombstones. -/
def ready (e : Exec V) : List Id := e.readyQueue.filter fun id => e.state id = .ready

structure Refines (e : Exec V) (a : FifoScheduler Id) : Prop where
  live : ∀ id, id ∈ a.live ↔ (e.state id).live = true
  queue : a.queue = e.ready

section Ready

variable {e e' : Exec V}

theorem mem_ready (hI : e.Inv) {id : Id} : id ∈ e.ready ↔ e.state id = .ready := by
  unfold ready
  rw [List.mem_filter, hI.queued]
  constructor
  · exact fun h => by simpa using h.2
  · exact fun h => ⟨by rw [h]; rfl, by simpa using h⟩

theorem ready_congr (hq : e'.readyQueue = e.readyQueue)
    (hs : ∀ id ∈ e.readyQueue, e'.state id = .ready ↔ e.state id = .ready) : e'.ready = e.ready := by
  unfold ready
  rw [hq]
  exact List.filter_congr fun id hid => by simp [hs id hid]

/-- A task that is not ready any more goes from the list, whether or not it is a tombstone in the queue. -/
theorem ready_erase (hI : e.Inv) {id : Id}
    (hq : e'.readyQueue = e.readyQueue ∨ e'.readyQueue = e.readyQueue ++ [id])
    (hs : ∀ j, j ≠ id → e'.state j = e.state j) (hid : e'.state id ≠ .ready) : e'.ready = e.ready.erase id := by
  have hnd : e.ready.Nodup := hI.nodup.filter _
  rw [hnd.erase_eq_filter]
  have hfilter : e'.ready = e.readyQueue.filter fun j => e'.state j = .ready := by
    unfold ready
    rcases hq with hq | hq <;> rw [hq]
    rw [List.filter_append]
    simp [hid]
  rw [hfilter, ready, List.filter_filter]
  refine List.filter_congr fun j _ => ?_
  by_cases hj : j = id
  · subst hj; simp [hid]
  · simp [hs j hj, hj]

end Ready

theorem Refines.congr {e e' : Exec V} {a : FifoScheduler Id} (hR : Refines e a) (hq : e'.readyQueue = e.readyQueue)
    (hs : ∀ id, e'.state id = e.state id) : Refines e' a where
  live id := by rw [hs]; exact hR.live id
  queue := hR.queue.trans (ready_congr hq fun id _ => by rw [hs]).symm

/-- An abort or a completion. -/
theorem Refines.remove {e e' : Exec V} {a : FifoScheduler Id} (hR : Refines e a) (hI : e.Inv) (id : Id)
    (hq : e'.readyQueue = e.readyQueue ∨ e'.readyQueue = e.readyQueue ++ [id])
    (hs : ∀ j, j ≠ id → e'.state j = e.state j) (hl : (e'.state id).live = false) : Refines e' (a.remove id) where
  live j := by
    rw [FifoScheduler.remove, Finset.mem_erase, hR.live]
    by_cases hj : j = id
    · subst hj; simp [hl]
    · simp [hs j hj, hj]
  queue := by
    show a.queue.erase id = _
    rw [hR.queue]
    exact (ready_erase hI hq hs fun h => by rw [h] at hl; cases hl).symm

/-- A wake of a waiting task. -/
theorem Refines.wake {e e' : Exec V} {a : FifoScheduler Id} (hR : Refines e a) (hI : e.Inv) (id : Id)
    (hw : e.state id = .waiting) (hq : e'.readyQueue = e.readyQueue ++ [id])
    (hs : ∀ j, e'.state j = if j = id then .ready else e.state j) : Refines e' (a.wake id) := by
  have hnot : id ∉ e.readyQueue := by rw [hI.queued, hw]; decide
  have hlive : id ∈ a.live := (hR.live id).mpr (by rw [hw]; rfl)
  have hnot' : id ∉ a.queue := by
    rw [hR.queue, mem_ready hI, hw]
    decide
  unfold FifoScheduler.wake
  rw [dif_pos ⟨hlive, hnot'⟩]
  refine ⟨fun j => ?_, ?_⟩
  · rw [hs]
    by_cases hj : j = id
    · subst hj; simp [hlive, TaskState.live]
    · simp [hj, hR.live]
  · show a.queue ++ [id] = e'.ready
    unfold ready
    rw [hR.queue, ready, hq, List.filter_append]
    congr 1
    · refine List.filter_congr fun j hj => ?_
      have hne : j ≠ id := fun h => hnot (h ▸ hj)
      simp [hs, hne]
    · simp [hs]

/-- A wake of any other task. -/
theorem Refines.wakeIdle {e : Exec V} {a : FifoScheduler Id} (hR : Refines e a) (hI : e.Inv) {id : Id}
    (hw : e.state id ≠ .waiting) : a.wake id = a := by
  unfold FifoScheduler.wake
  refine dif_neg fun h => ?_
  obtain ⟨h1, h2⟩ := h
  rw [hR.live] at h1
  rw [hR.queue, mem_ready hI] at h2
  cases hs : e.state id <;> simp [hs, TaskState.live] at h1 h2 hw

/-- **Simulation**: what an act adds to the log the plain scheduler can read, and the two still agree. -/
theorem Act.refines {e e' : Exec V} (h : Act e e') (hI : e.Inv) {a : FifoScheduler Id} (hR : Refines e a)
    (hx : e'.log = e.log ++ [.exhausted] → e.ready = []) :
    ∃ os a', e'.log = e.log ++ os ∧ Machine.accept FifoScheduler.step a (schedLog os) = some a' ∧
    Refines e' a' := by
  cases h with
  | spawn node id hrun hid hlt =>
    have hend : e.state id = .taskEnd := hI.fresh id (hid ▸ Nat.lt_succ_self _)
    refine ⟨[.spawn id node, .wake id], (a.spawn id).wake id, List.append_assoc e.log [_] [_], rfl, ?_⟩
    have hready : (e.insertTask node id).ready = e.ready := by
      refine ready_congr rfl fun j hj => ?_
      rw [state_insertTask]
      have hne : j ≠ id := by
        rintro rfl
        rw [hI.queued, hend] at hj
        cases hj
      simp [hne]
    have hspawn : Refines (e.insertTask node id) (a.spawn id) := by
      refine ⟨fun j => ?_, hR.queue.trans hready.symm⟩
      rw [FifoScheduler.spawn, Finset.mem_insert, hR.live, state_insertTask]
      by_cases hj : j = id
      · subst hj; simp [TaskState.live]
      · simp [hj]
    refine hspawn.wake ?_ id (by simp [state_insertTask]) rfl (fun j => by simp)
    subst hid
    exact insertTask_inv hI (length_of_runLevel hrun) hlt
  | wakeIdle id hs hend =>
    exact ⟨[.wake id], a, rfl, congrArg some (hR.wakeIdle hI hs), hR.congr rfl fun _ => rfl⟩
  | wake id hs => exact ⟨[.wake id], _, rfl, rfl, hR.wake hI id hs rfl fun j => by simp⟩
  | abortIdle id hs => exact ⟨[.abort id], _, rfl, rfl, hR.remove hI id (Or.inl rfl) (fun _ _ => rfl) hs⟩
  | abortPolled id hs hp =>
    refine ⟨[.abort id], _, by simp, rfl, hR.remove hI id ?_ (fun j hj => by simp [hj]) (by simp [TaskState.live])⟩
    rw [readyQueue_abortAt]
    split
    · exact Or.inr rfl
    · exact Or.inl rfl
  | abort id hs hp =>
    refine ⟨[.abort id, .drop id false], _, by simp [dropUnsent], rfl,
      hR.remove hI id ?_ (fun j hj => by simp [hj, dropUnsent]) (by simp [dropUnsent, TaskState.live])⟩
    show (abortAt _ id).readyQueue = _ ∨ (abortAt _ id).readyQueue = _
    rw [readyQueue_abortAt]
    split
    · exact Or.inr rfl
    · exact Or.inl rfl
  | poll id q hq hs hr hf =>
    have hnd := hI.nodup
    rw [hq] at hnd
    have hqueue : a.queue = id :: q.filter fun j => e.state j = .ready := by
      rw [hR.queue, Exec.ready, hq, List.filter_cons, if_pos (by simpa using hs)]
    refine ⟨[.poll id], a.tail, by simp [takeHead], ?_, fun j => ?_, ?_⟩
    · show (if a.queue.head? = some id then some a.tail else none) >>= _ = _
      rw [if_pos (by rw [hqueue]; rfl)]
      rfl
    · refine (hR.live j).trans ?_
      by_cases hj : j = id
      · subst hj; simp [takeHead, hs, TaskState.live]
      · simp [takeHead, hj]
    · show a.queue.tail = (q.filter fun j => (e.takeHead id q).state j = .ready)
      rw [hqueue]
      refine List.filter_congr fun j hj => ?_
      have hne : j ≠ id := fun h => (List.nodup_cons.mp hnd).1 (h ▸ hj)
      simp [takeHead, hne]
  | clear id q st hq hs hr hf =>
    have hnd := hI.nodup
    rw [hq] at hnd
    refine ⟨[], a, (List.append_nil _).symm, rfl, fun j => ?_, ?_⟩
    · refine (hR.live j).trans ?_
      by_cases hj : j = id
      · subst hj
        rcases hs with ⟨h1, rfl⟩ | ⟨h1, rfl⟩ <;> simp [clearHead, h1, TaskState.live]
      · simp [clearHead, hj]
    · have hne : e.state id ≠ .ready := by rcases hs with ⟨h1, -⟩ | ⟨h1, -⟩ <;> rw [h1] <;> decide
      rw [hR.queue, Exec.ready, hq, List.filter_cons, if_neg (by simpa using hne)]
      refine List.filter_congr fun j hj => ?_
      have hne : j ≠ id := fun h => (List.nodup_cons.mp hnd).1 (h ▸ hj)
      simp [clearHead, hne]
  | pending id hr hs => exact ⟨[.ret id none], a, rfl, rfl, hR.congr rfl fun _ => by simp⟩
  | pendingAborted id hr hs =>
    exact ⟨[.ret id none, .drop id true], a, List.append_assoc e.log [_] [_], rfl,
      hR.congr rfl fun _ => by simp [dropUnsent]⟩
  | ready id v hr hs =>
    exact ⟨[.ret id (some v), .drop id true], _, List.append_assoc e.log [_] [_], rfl,
      hR.remove hI id (Or.inl rfl) (fun j hj => by simp [sent, hj]) (by simp [TaskState.live])⟩
  | readyQueued id v hr hs =>
    exact ⟨[.ret id (some v), .drop id true], _, List.append_assoc e.log [_] [_], rfl,
      hR.remove hI id (Or.inl rfl) (fun j hj => by simp [sent, hj]) (by simp [TaskState.live])⟩
  | exhausted hq =>
    refine ⟨[.exhausted], a, rfl, ?_, hR.congr rfl fun _ => rfl⟩
    show (if a.queue = [] then some a else none) >>= _ = _
    rw [if_pos (by rw [hR.queue]; exact hx rfl)]
    rfl
  | finalize | start | pushNode | finalStop | newId =>
    exact ⟨[], a, (List.append_nil _).symm, rfl, hR.congr rfl fun _ => rfl⟩
  | _ => exact ⟨[_], a, rfl, rfl, hR.congr rfl fun _ => rfl⟩

end Exec

namespace SimCx

variable {Q : Type} [KeyedQueue Q Loc Instant] {b : SimBuilder} {s s' : SimCx V Q} {l : Label V}

/-- The queue is found exhausted at the loop. -/
theorem Next.exhausted_loop (h : Next s l s') (hB : s.Base) (hx : s'.ex.log = s.ex.log ++ [.exhausted]) :
    (∃ rest, s.stack = .loop :: rest) ∧ (s.ex.finalStopped = true ∨ s.ex.readyQueue = []) := by
  cases h with
  | exhausted order rest hk hc hq hp => exact ⟨⟨_, hk⟩, hq⟩
  | advance order rest loc next time hk hc hq hp ht => exact ⟨⟨_, hk⟩, hq⟩
  | exec op e hu hq => cases hq <;> simp [Exec.closeHandle] at hx
  | wakeTask order rest loc t id q e hk hp hs he => cases Exec.wakeByRef_quiet he <;> simp [Exec.closeHandle] at hx
  | stopNext order id ids caller rest e hk hc hl => rcases hl with ⟨-, rfl⟩ | ⟨-, -, rfl⟩ <;> simp at hx
  | pollDropped l caller rest id r e hk hc hr hd he ha hr' hf =>
    obtain ⟨t, he⟩ := he
    replace hx : e.log = s.ex.log ++ [.exhausted] := hx
    rw [pollEnd_dropped hB.exec hr he] at hx
    simp at hx
  | _ =>
    exact absurd hx (by simp [Exec.insertTask, Exec.dropUnsent, Exec.clearHead, Exec.takeHead, Exec.setRunLevel])

/-- Then no task is ready. -/
theorem Next.exhausted_ready (h : Next s l s') (hr : Reachable b s) (hx : s'.ex.log = s.ex.log ++ [.exhausted]) :
    s.ex.ready = [] := by
  obtain ⟨⟨rest, hk⟩, hf | hq⟩ := h.exhausted_loop hr.base hx
  · refine List.eq_nil_iff_forall_not_mem.mpr fun id hid => ?_
    have hl := hr.stopped_dead hf (hr.quiescent_loop hk) id
    rw [(Exec.mem_ready hr.base.exec).mp hid] at hl
    cases hl
  · rw [Exec.ready, hq]
    rfl

/-- The plain scheduler accepts the log, and the two agree. -/
theorem Reachable.refines (hr : Reachable b s) :
    ∃ a, Machine.accept FifoScheduler.step FifoScheduler.empty (schedLog s.ex.log) = some a ∧ s.ex.Refines a := by
  refine Machine.accepts_of_sim (fun s : SimCx V Q => schedLog s.ex.log) (R := fun s a => s.ex.Refines a)
    (I := Reachable b) (fun _ _ _ hr h => hr.tail h) (fun s l s' a hr hR hst => ?_) rfl (Machine.Steps.refl _)
    ⟨fun id => by simp [FifoScheduler.empty, install, Exec.new, Exec.state, TaskState.live], rfl⟩ hr
  have hn := step_next hr.base hst
  rcases hn.act hr.base with he | he
  · exact ⟨[], a, by rw [he, List.append_nil], rfl, by rw [he]; exact hR⟩
  · obtain ⟨os, a', h1, h2, h3⟩ := he.refines hr.base.exec hR (hn.exhausted_ready hr)
    exact ⟨schedLog os, a', by rw [h1]; exact List.filterMap_append, h2, h3⟩

/-! ## The loop -/

/-- One round of the loop with a task at the head of the queue. -/
theorem step_loop (hB : s.Base) {rest : List (Frame V)} (hk : s.stack = .loop :: rest)
    (hf : s.ex.finalStopped = false) {id : Id} {q : List Id} (hq : s.ex.readyQueue = id :: q) :
    s.ex.state id = .ready ∧ (∃ s', s.step (.run []) = .ok s' ∧ s'.ex.log = s.ex.log ++ [.poll id]) ∨
    ∃ s', s.step (.run []) = .ok s' ∧ s'.ex.log = s.ex.log ∧ s'.stack = s.stack ∧ s'.ex.finalStopped = false ∧
      s'.ex.readyQueue = q := by
  have hS := hB.shape
  rw [hk] at hS
  obtain ⟨hc, hr, -⟩ := hS.loop_eq
  have hr' : s.ex.running = none := by simpa using hr
  have hstep : ∀ o e', call ((s.ex.setQueue q).popped id) = .ok (o, e') →
      s.step (.run []) = .ok (o.elim { s with ex := e' } fun t => { s with
        ex := e'
        events := s.events ++ [.taskRun id]
        currentNode := e'.node t.id
        stack := .poll s.currentNode :: .loop :: rest }) := by
    intro o e' h
    simp only [step, runtime, hk, runLoop, borrow, hc, hf, hq, h]
    cases o <;> rfl
  rcases Exec.popped_spec hB.exec hq hr' with ⟨hs, hp⟩ | ⟨st, hs, hp⟩
  · refine Or.inl ⟨hs, ?_⟩
    rw [hstep _ _ (congrArg call hp)]
    exact ⟨_, rfl, by simp [Exec.takeHead]⟩
  · refine Or.inr ?_
    rw [hstep _ _ (congrArg call hp)]
    exact ⟨_, rfl, rfl, rfl, hf, rfl⟩

/-- The loop drops the tombstones at the head of the queue. -/
theorem loop_clears (n : ℕ) (s : SimCx V Q) (hn : s.ex.readyQueue.length = n) (hB : s.Base) {rest : List (Frame V)}
    (hk : s.stack = .loop :: rest) (hf : s.ex.finalStopped = false) :
    ∃ m, Machine.Steps step s m ∧ m.ex.log = s.ex.log ∧ m.stack = s.stack ∧ (m.ex.readyQueue = [] ∨
      ∃ id q m', m.ex.readyQueue = id :: q ∧ m.ex.state id = .ready ∧ m.step (.run []) = .ok m' ∧
        m'.ex.log = m.ex.log ++ [.poll id]) := by
  induction n generalizing s with
  | zero => exact ⟨s, .refl s, rfl, rfl, Or.inl (List.length_eq_zero_iff.mp hn)⟩
  | succ n ih =>
    cases hq : s.ex.readyQueue with
    | nil => exact ⟨s, .refl s, rfl, rfl, Or.inl hq⟩
    | cons id q =>
      rcases step_loop hB hk hf hq with ⟨hs, m', h1, h2⟩ | ⟨s', h1, h2, h3, h4, h5⟩
      · exact ⟨s, .refl s, rfl, rfl, Or.inr ⟨id, q, m', hq, hs, h1, h2⟩⟩
      · have hlen : s'.ex.readyQueue.length = n := by
          rw [hq] at hn
          rw [h5]
          simpa using hn
        obtain ⟨m, hm, hlog, hstack, hend⟩ := ih s' hlen (step_base hB h1) (h3.trans hk) h4
        exact ⟨m, (Machine.Steps.single h1).trans hm, hlog.trans h2, hstack.trans h3, hend⟩

/-- **The ready queue refines a FIFO list.**  The plain scheduler accepts the log of every run, and its list
is the ready queue without the tombstones.  At the loop the executor, after dropping tombstones, polls the
head of that list, and finds its queue exhausted if the list is empty.  So a wake of a live task puts it on
the list until it is polled, aborted or complete, and between two polls of a task there is a wake. -/
theorem ready_queue_refines_fifo (hr : Reachable b s) :
    ∃ a, Machine.accept FifoScheduler.step FifoScheduler.empty (schedLog s.ex.log) = some a ∧
      (∀ id, id ∈ a.live ↔ s.ex.state id = .waiting ∨ s.ex.state id = .ready) ∧
      a.queue = s.ex.readyQueue.filter (fun id => s.ex.state id = .ready) ∧
      (∀ rest, s.stack = .loop :: rest → ∃ m, Machine.Steps step s m ∧ m.ex.log = s.ex.log ∧ m.stack = s.stack ∧
        (a.queue = [] → m.ex.finalStopped = true ∨ m.ex.readyQueue = []) ∧
        ∀ id q, a.queue = id :: q → ∃ m', m.step (.run []) = .ok m' ∧ m'.ex.log = m.ex.log ++ [.poll id]) ∧
      (∀ pre post id a₁, s.ex.log = pre ++ .wake id :: post →
        Machine.accept FifoScheduler.step FifoScheduler.empty (schedLog pre) = some a₁ → id ∈ a₁.live →
        id ∈ a.queue ∨ .poll id ∈ post ∨ .abort id ∈ post ∨ ∃ v, .ret id (some v) ∈ post) ∧
      ∀ pre mid post id, s.ex.log = pre ++ .poll id :: mid ++ .poll id :: post → .wake id ∈ mid := by
  obtain ⟨a, ha, hR⟩ := hr.refines
  have hB := hr.base
  have happend : ∀ l l' : List (Obs V), schedLog (l ++ l') = schedLog l ++ schedLog l' :=
    fun _ _ => List.filterMap_append
  refine ⟨a, ha, fun id => ?_, hR.queue, fun rest hk => ?_, ?_, ?_⟩
  · rw [hR.live]
    cases s.ex.state id <;> simp [TaskState.live]
  · by_cases hf : s.ex.finalStopped = true
    · refine ⟨s, .refl s, rfl, rfl, fun _ => Or.inl hf, fun id q hq => ?_⟩
      have hid : id ∈ s.ex.ready := by
        rw [← hR.queue, hq]
        exact List.mem_cons_self
      have hl := hr.stopped_dead hf (hr.quiescent_loop hk) id
      rw [(Exec.mem_ready hB.exec).mp hid] at hl
      cases hl
    · obtain ⟨m, hm, hlog, hstack, hend⟩ := loop_clears _ s rfl hB hk (by simpa using hf)
      -- the list is that of the log, which has not changed
      obtain ⟨a', ha', hR'⟩ := Reachable.refines (hr.trans hm : Reachable b m)
      rw [hlog, ha] at ha'
      obtain rfl := Option.some.inj ha'
      rcases hend with h0 | ⟨id, q, m', h0, hs, h1, h2⟩
      · refine ⟨m, hm, hlog, hstack, fun _ => Or.inr h0, fun id q hq => ?_⟩
        rw [hR'.queue, Exec.ready, h0] at hq
        cases hq
      · have hqueue : a.queue = id :: q.filter fun j => m.ex.state j = .ready := by
          rw [hR'.queue, Exec.ready, h0, List.filter_cons, if_pos (by simpa using hs)]
        refine ⟨m, hm, hlog, hstack, fun hq => ?_, fun id' q' hq => ⟨m', h1, ?_⟩⟩
        · rw [hqueue] at hq
          cases hq
        · rw [hqueue] at hq
          rw [h2, (List.cons.inj hq).1]
  · rintro pre post id a₁ hlog ha₁ hlive
    rw [hlog, happend, Machine.accept_append, ha₁] at ha
    obtain ⟨a₂, h1, h2⟩ := Option.bind_eq_some_iff.mp
      (show (FifoScheduler.step a₁ (.wake id)).bind (fun a' => Machine.accept _ a' (schedLog post)) =
        some a from ha)
    cases h1
    rcases FifoScheduler.listed_kept h2 (FifoScheduler.mem_wake.mpr (Or.inr ⟨rfl, hlive⟩)) with h0 | h0 | h0
    · exact Or.inl h0
    · obtain ⟨o, ho, hs⟩ := List.mem_filterMap.mp h0
      exact Or.inr (Or.inl (Obs.eq_poll hs ▸ ho))
    · obtain ⟨o, ho, hs⟩ := List.mem_filterMap.mp h0
      rcases Obs.eq_remove hs with rfl | ⟨v, rfl⟩
      · exact Or.inr (Or.inr (Or.inl ho))
      · exact Or.inr (Or.inr (Or.inr ⟨v, ho⟩))
  · rintro pre mid post id hlog
    rw [hlog, happend, happend, Machine.accept_append, Machine.accept_append] at ha
    obtain ⟨a₂, h1, h2⟩ := Option.bind_eq_some_iff.mp ha
    obtain ⟨a₁, -, h3⟩ := Option.bind_eq_some_iff.mp h1
    -- the second poll is accepted after `mid`
    obtain ⟨a₃, h4, -⟩ := Option.bind_eq_some_iff.mp
      (show (FifoScheduler.step a₂ (.poll id)).bind (fun a' => Machine.accept _ a' (schedLog post)) =
        some a from h2)
    have h5 : Machine.accept FifoScheduler.step a₁ (.poll id :: (schedLog mid ++ [.poll id])) = some a₃ := by
      have : Machine.accept FifoScheduler.step a₁ (.poll id :: schedLog mid) = some a₂ := h3
      rw [← List.cons_append, Machine.accept_append, this]
      show (FifoScheduler.step a₂ (.poll id)).bind some = _
      rw [h4]
      rfl
    have hw := FifoScheduler.wake_between h5 (by simp)
    simp only [List.mem_append, List.mem_singleton, reduceCtorEq, or_false] at hw
    obtain ⟨o, ho, hs⟩ := List.mem_filterMap.mp hw
    exact Obs.eq_wake hs ▸ ho

/-- The root task spawns a task, wakes itself, aborts the task and is pending: only the root is listed. -/
theorem ready_queue_refines_fifo_tombstone : ∃ s : ArraySim,
    Machine.run step (install epoch) tombstoneRun = .ok s ∧ s.ex.readyQueue = [2, 1] ∧
      ∃ a, Machine.accept FifoScheduler.step FifoScheduler.empty (schedLog s.ex.log) = some a ∧ a.queue = [1] := by
  obtain ⟨s, hs, hq⟩ : ∃ s : ArraySim, Machine.run step (install epoch) tombstoneRun = .ok s ∧
      (s.ex.readyQueue, s.ex.state 1, s.ex.state 2) = ([2, 1], .ready, .abortedReady) := Machine.exists_of_run rfl
  simp only [Prod.mk.injEq] at hq
  obtain ⟨a, ha, -, hqueue, -⟩ := ready_queue_refines_fifo ⟨_, hs⟩
  exact ⟨s, hs, hq.1, a, ha, by rw [hqueue, hq.1]; simp [hq.2.1, hq.2.2]⟩

end SimCx

end Refault
