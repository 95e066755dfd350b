import Refault.Step

/-!
# Refault.History — what the log says about a task

For a task the log is projected to the drops of its future, the values its polls returned and what its handle
resolved to.  `Accounts` ties the three to the task's state and channel: while the executor has the future all
are empty, and from then on there is one drop, the value if there was one, and the handle resolves to exactly
that.
-/

namespace Refault

variable {V : Type}

namespace Obs

def dropOf (id : Id) : Obs V → Option Bool
  | .drop i b => if i = id then some b else none
  | _ => none

def retOf (id : Id) : Obs V → Option V
  | .ret i (some v) => if i = id then some v else none
  | _ => none

def joinOf (id : Id) : Obs V → Option (Option V)
  | .joined i r => if i = id then some r else none
  | _ => none

end Obs

/-- The drops of the future of `id`, each with whether the context was borrowed. -/
def drops (id : Id) (log : List (Obs V)) : List Bool := log.filterMap (Obs.dropOf id)

/-- The values that polls of `id` returned. -/
def rets (id : Id) (log : List (Obs V)) : List V := log.filterMap (Obs.retOf id)

/-- What the handle of `id` resolved to. -/
def joins (id : Id) (log : List (Obs V)) : List (Option V) := log.filterMap (Obs.joinOf id)

section Projections

variable (id : Id) (log log' : List (Obs V))

@[simp] theorem drops_append : drops id (log ++ log') = drops id log ++ drops id log' := List.filterMap_append
@[simp] theorem rets_append : rets id (log ++ log') = rets id log ++ rets id log' := List.filterMap_append
@[simp] theorem joins_append : joins id (log ++ log') = joins id log ++ joins id log' := List.filterMap_append

@[simp] theorem drops_cons (o : Obs V) : drops id (o :: log) = (o.dropOf id).toList ++ drops id log := by
  unfold drops
  rw [List.filterMap_cons]
  cases o.dropOf id <;> rfl

@[simp] theorem rets_cons (o : Obs V) : rets id (o :: log) = (o.retOf id).toList ++ rets id log := by
  unfold rets
  rw [List.filterMap_cons]
  cases o.retOf id <;> rfl

@[simp] theorem joins_cons (o : Obs V) : joins id (o :: log) = (o.joinOf id).toList ++ joins id log := by
  unfold joins
  rw [List.filterMap_cons]
  cases o.joinOf id <;> rfl

@[simp] theorem drops_nil : drops id ([] : List (Obs V)) = [] := rfl
@[simp] theorem rets_nil : rets id ([] : List (Obs V)) = [] := rfl
@[simp] theorem joins_nil : joins id ([] : List (Obs V)) = [] := rfl

theorem mem_drops {id : Id} {log : List (Obs V)} {b : Bool} : b ∈ drops id log ↔ .drop id b ∈ log := by
  unfold drops
  rw [List.mem_filterMap]
  constructor
  · rintro ⟨o, ho, h⟩
    cases o <;> simp [Obs.dropOf] at h
    obtain ⟨rfl, rfl⟩ := h
    exact ho
  · exact fun h => ⟨_, h, by simp [Obs.dropOf]⟩

theorem mem_rets {id : Id} {log : List (Obs V)} {v : V} : v ∈ rets id log ↔ .ret id (some v) ∈ log := by
  unfold rets
  rw [List.mem_filterMap]
  constructor
  · rintro ⟨o, ho, h⟩
    cases o with
    | ret i r =>
      cases r with
      | none => cases h
      | some v' =>
        simp only [Obs.retOf, Option.ite_none_right_eq_some, Option.some.injEq] at h
        obtain ⟨rfl, rfl⟩ := h
        exact ho
    | _ => cases h
  · exact fun h => ⟨_, h, by simp [Obs.retOf]⟩

theorem mem_joins {id : Id} {log : List (Obs V)} {r : Option V} : r ∈ joins id log ↔ .joined id r ∈ log := by
  unfold joins
  rw [List.mem_filterMap]
  constructor
  · rintro ⟨o, ho, h⟩
    cases o <;> simp [Obs.joinOf] at h
    obtain ⟨rfl, rfl⟩ := h
    exact ho
  · exact fun h => ⟨_, h, by simp [Obs.joinOf]⟩

end Projections

namespace TaskState

/-- The states after a poll that returned `Poll::Ready`. -/
def completed : TaskState → Bool
  | .completeReady | .complete => true
  | _ => false

end TaskState

namespace OneShot

/-- The channel after the sender has sent a value, or was dropped without. -/
def ofResult : Option V → OneShot V
  | some v => .value v
  | none => .canceled

end OneShot

namespace Exec

/-- The future of `id` is in its slot or being polled, or there is none yet. -/
def Open (e : Exec V) (id : Id) : Prop := e.state id = .taskEnd ∨ (e.state id).live = true ∨ e.polling = some id

structure Accounts (e : Exec V) (id : Id) : Prop where
  opened : e.Open id → drops id e.log = [] ∧ rets id e.log = [] ∧ joins id e.log = [] ∧ e.chan id = .empty
  closed : ¬ e.Open id → ∃ r b, drops id e.log = [b] ∧ rets id e.log = r.toList ∧
    (e.state id).completed = r.isSome ∧
    (joins id e.log = [] ∧ e.chan id = .ofResult r ∨ joins id e.log = [r] ∧ e.chan id = .closed)

/-- A task whose state, future, channel and projections are as before. -/
theorem Accounts.congr {e e' : Exec V} {id : Id} (hA : e.Accounts id) (hs : e'.state id = e.state id)
    (hp : e'.polling = some id ↔ e.polling = some id) (hc : e'.chan id = e.chan id)
    (hd : drops id e'.log = drops id e.log) (hr : rets id e'.log = rets id e.log)
    (hj : joins id e'.log = joins id e.log) : e'.Accounts id := by
  have ho : e'.Open id ↔ e.Open id := by simp only [Open, hs, hp]
  constructor
  · intro h
    rw [hd, hr, hj, hc]
    exact hA.opened (ho.mp h)
  · intro h
    rw [hd, hr, hj, hc, hs]
    exact hA.closed (mt ho.mpr h)

/-- A task that keeps its future. -/
theorem Accounts.stay {e e' : Exec V} {id : Id} (hA : e.Accounts id) (ho : e.Open id) (ho' : e'.Open id)
    (hc : e'.chan id = .empty) (hd : drops id e'.log = drops id e.log) (hr : rets id e'.log = rets id e.log)
    (hj : joins id e'.log = joins id e.log) : e'.Accounts id := by
  refine ⟨fun _ => ?_, fun h => absurd ho' h⟩
  rw [hd, hr, hj, hc]
  obtain ⟨h1, h2, h3, -⟩ := hA.opened ho
  exact ⟨h1, h2, h3, rfl⟩

/-- A task that loses its future, with `r` sent. -/
theorem Accounts.close {e e' : Exec V} {id : Id} (hA : e.Accounts id) (ho : e.Open id) (ho' : ¬ e'.Open id)
    (r : Option V) (b : Bool) (hs : (e'.state id).completed = r.isSome) (hc : e'.chan id = .ofResult r)
    (hd : drops id e'.log = drops id e.log ++ [b]) (hr : rets id e'.log = rets id e.log ++ r.toList)
    (hj : joins id e'.log = joins id e.log) : e'.Accounts id := by
  refine ⟨fun h => absurd h ho', fun _ => ⟨r, b, ?_, ?_, hs, Or.inl ⟨?_, hc⟩⟩⟩ <;>
    obtain ⟨h1, h2, h3, -⟩ := hA.opened ho
  · rw [hd, h1]; rfl
  · rw [hr, h2]; rfl
  · rw [hj, h3]

theorem Accounts.drops_le {e : Exec V} {id : Id} (hA : e.Accounts id) : (drops id e.log).length ≤ 1 := by
  by_cases ho : e.Open id
  · rw [(hA.opened ho).1]
    exact Nat.zero_le _
  · obtain ⟨r, b, h, -⟩ := hA.closed ho
    rw [h]
    exact le_refl _

theorem open_of_polling {e : Exec V} {id : Id} (h : e.polling = some id) : e.Open id := Or.inr (Or.inr h)

theorem polling_of_running {e : Exec V} {id : Id} {snd : Bool} (h : e.running = some ⟨id, snd⟩) :
    e.polling = some id := by rw [polling, h]; rfl

/-- **Every act keeps the accounts** of every task. -/
theorem Act.accounts {e e' : Exec V} (h : Act e e') (hI : e.Inv) (hA : ∀ id, e.Accounts id) (j : Id) :
    e'.Accounts j := by
  have hAj := hA j
  cases h with
  | spawn node id hrun hid hlt =>
    by_cases hj : j = id
    · subst hj
      have hend : e.state j = .taskEnd := hI.fresh j (hid ▸ Nat.lt_succ_self _)
      exact hAj.stay (Or.inl hend) (Or.inr (Or.inl (by simp [TaskState.live]))) (by simp [insertTask])
        (by simp [insertTask, Obs.dropOf]) (by simp [insertTask, Obs.retOf]) (by simp [insertTask, Obs.joinOf])
    · exact hAj.congr (by simp [state_insertTask, hj]) Iff.rfl (by simp [insertTask, hj])
        (by simp [insertTask, Obs.dropOf]) (by simp [insertTask, Obs.retOf]) (by simp [insertTask, Obs.joinOf])
  | wake id hs =>
    by_cases hj : j = id
    · subst hj
      have ho : e.Open j := Or.inr (Or.inl (by rw [hs]; rfl))
      exact hAj.stay ho (Or.inr (Or.inl (by simp [TaskState.live]))) (by simpa using (hAj.opened ho).2.2.2)
        (by simp [Obs.dropOf]) (by simp [Obs.retOf]) (by simp [Obs.joinOf])
    · exact hAj.congr (by simp [hj]) Iff.rfl rfl (by simp [Obs.dropOf]) (by simp [Obs.retOf])
        (by simp [Obs.joinOf])
  | abortPolled id hs hp =>
    by_cases hj : j = id
    · subst hj
      have ho : e.Open j := open_of_polling hp
      exact hAj.stay ho (open_of_polling (by simpa [polling] using hp)) (by simpa using (hAj.opened ho).2.2.2)
        (by simp [Obs.dropOf]) (by simp [Obs.retOf]) (by simp [Obs.joinOf])
    · exact hAj.congr (by simp [hj]) (by simp [polling]) (by simp) (by simp [Obs.dropOf]) (by simp [Obs.retOf])
        (by simp [Obs.joinOf])
  | abort id hs hp =>
    by_cases hj : j = id
    · subst hj
      refine hAj.close (Or.inr (Or.inl hs)) ?_ none false (by simp [dropUnsent, TaskState.completed])
        (by simp [dropUnsent, OneShot.ofResult]) (by simp [dropUnsent, Obs.dropOf])
          (by simp [dropUnsent, Obs.retOf])
        (by simp [dropUnsent, Obs.joinOf])
      simpa [Open, dropUnsent, TaskState.live, polling] using hp
    · exact hAj.congr (by simp [hj, dropUnsent]) (by simp [polling, dropUnsent]) (by simp [hj, dropUnsent])
        (by simp [dropUnsent, Obs.dropOf, Ne.symm hj]) (by simp [dropUnsent, Obs.retOf])
        (by simp [dropUnsent, Obs.joinOf])
  | poll id q hq hs hr hf =>
    by_cases hj : j = id
    · subst hj
      have ho : e.Open j := Or.inr (Or.inl (by rw [hs]; rfl))
      exact hAj.stay ho (open_of_polling (by simp [polling, takeHead]))
        (by simpa [takeHead] using (hAj.opened ho).2.2.2)
        (by simp [takeHead, Obs.dropOf]) (by simp [takeHead, Obs.retOf]) (by simp [takeHead, Obs.joinOf])
    · exact hAj.congr (by simp [hj, takeHead]) (by simp [polling, takeHead, hr, Ne.symm hj]) rfl
        (by simp [takeHead, Obs.dropOf]) (by simp [takeHead, Obs.retOf]) (by simp [takeHead, Obs.joinOf])
  | clear id q st hq hs hr hf =>
    by_cases hj : j = id
    · subst hj
      have hp : e.polling = none := by rw [polling, hr]; rfl
      have ho : ¬ e.Open j := by
        simp only [Open, hp]
        rcases hs with ⟨h, -⟩ | ⟨h, -⟩ <;> rw [h] <;> simp [TaskState.live]
      have hcomp : st.completed = (e.state j).completed := by
        rcases hs with ⟨h, rfl⟩ | ⟨h, rfl⟩ <;> rw [h] <;> rfl
      refine ⟨fun h => ?_, fun _ => ?_⟩
      · exfalso
        have hp' : (e.clearHead j q st).polling = none := hp
        simp only [Open, hp'] at h
        rcases hs with ⟨-, rfl⟩ | ⟨-, rfl⟩ <;> simp [clearHead, TaskState.live] at h
      · have hc := hAj.closed ho
        simpa [clearHead, hcomp] using hc
    · exact hAj.congr (by simp [hj, clearHead]) Iff.rfl rfl rfl rfl rfl
  | pending id hr hs =>
    by_cases hj : j = id
    · subst hj
      have ho : e.Open j := Or.inr (Or.inl hs)
      exact hAj.stay ho (Or.inr (Or.inl (by simpa using hs))) (by simpa using (hAj.opened ho).2.2.2)
        (by simp [Obs.dropOf]) (by simp [Obs.retOf]) (by simp [Obs.joinOf])
    · exact hAj.congr (by simp) (by simp [polling, hr, Ne.symm hj]) rfl (by simp [Obs.dropOf])
        (by simp [Obs.retOf]) (by simp [Obs.joinOf])
  | pendingAborted id hr hs =>
    by_cases hj : j = id
    · subst hj
      refine hAj.close (open_of_polling (polling_of_running hr)) ?_ none true
        (by simp [dropUnsent, hs, TaskState.completed]) (by simp [dropUnsent, OneShot.ofResult])
        (by simp [dropUnsent, Obs.dropOf]) (by simp [dropUnsent, Obs.retOf]) (by simp [dropUnsent, Obs.joinOf])
      simp [Open, dropUnsent, hs, TaskState.live, polling]
    · exact hAj.congr (by simp [dropUnsent]) (by simp [polling, dropUnsent, hr, Ne.symm hj])
        (by simp [hj, dropUnsent])
        (by simp [dropUnsent, Obs.dropOf, Ne.symm hj]) (by simp [dropUnsent, Obs.retOf])
        (by simp [dropUnsent, Obs.joinOf])
  | ready id v hr hs =>
    by_cases hj : j = id
    · subst hj
      refine hAj.close (open_of_polling (polling_of_running hr)) ?_ (some v) true (by simp [TaskState.completed])
        (by simp [sent, OneShot.ofResult]) (by simp [sent, Obs.dropOf]) (by simp [sent, Obs.retOf])
        (by simp [sent, Obs.joinOf])
      simp [Open, TaskState.live, polling]
    · exact hAj.congr (by simp [sent, hj]) (by simp [polling, hr, Ne.symm hj]) (by simp [sent, hj])
        (by simp [sent, Obs.dropOf, Ne.symm hj]) (by simp [sent, Obs.retOf, Ne.symm hj])
          (by simp [sent, Obs.joinOf])
  | readyQueued id v hr hs =>
    by_cases hj : j = id
    · subst hj
      refine hAj.close (open_of_polling (polling_of_running hr)) ?_ (some v) true (by simp [TaskState.completed])
        (by simp [sent, OneShot.ofResult]) (by simp [sent, Obs.dropOf]) (by simp [sent, Obs.retOf])
        (by simp [sent, Obs.joinOf])
      simp [Open, TaskState.live, polling]
    · exact hAj.congr (by simp [sent, hj]) (by simp [polling, hr, Ne.symm hj]) (by simp [sent, hj])
        (by simp [sent, Obs.dropOf, Ne.symm hj]) (by simp [sent, Obs.retOf, Ne.symm hj])
          (by simp [sent, Obs.joinOf])
  | joined id r hr =>
    by_cases hj : j = id
    · subst hj
      have hch : e.chan j = .ofResult r := by
        unfold pollHandle at hr
        cases hc : e.chan j <;> rw [hc] at hr <;> cases hr <;> rfl
      have ho : ¬ e.Open j := fun ho => by
        rw [(hAj.opened ho).2.2.2] at hch
        cases r <;> cases hch
      obtain ⟨r', b, h1, h2, h3, ⟨h4, h5⟩ | ⟨h4, h5⟩⟩ := hAj.closed ho
      · have hrr : r = r' := by
          rw [hch] at h5
          cases r <;> cases r' <;> cases h5 <;> rfl
        subst hrr
        refine ⟨fun h => absurd h ho, fun _ => ⟨r, b, ?_, ?_, h3, Or.inr ⟨?_, ?_⟩⟩⟩
        · simpa [closeHandle, Obs.dropOf] using h1
        · simpa [closeHandle, Obs.retOf] using h2
        · simp [closeHandle, Obs.joinOf, h4]
        · simp [closeHandle]
      · rw [hch] at h5
        cases r <;> cases h5
    · exact hAj.congr rfl Iff.rfl (by simp [closeHandle, hj]) (by simp [closeHandle, Obs.dropOf])
        (by simp [closeHandle, Obs.retOf]) (by simp [closeHandle, Obs.joinOf, Ne.symm hj])
  | _ =>
    exact hAj.congr rfl Iff.rfl rfl (by simp [Obs.dropOf, setRunLevel]) (by simp [Obs.retOf, setRunLevel])
      (by simp [Obs.joinOf, setRunLevel])

theorem accounts_new (id : Id) : (Exec.new : Exec V).Accounts id :=
  ⟨fun _ => ⟨rfl, rfl, rfl, rfl⟩, fun h => absurd (Or.inl rfl) h⟩

end Exec

/-! ## Polls -/

/-- How often `id` was polled. -/
def polls (id : Id) (log : List (Obs V)) : ℕ := log.countP fun | .poll i => decide (i = id) | _ => false

/-- `id` was aborted since its last poll began. -/
def abortedSince (id : Id) (log : List (Obs V)) : Bool :=
  log.foldl (fun a o => match o with
    | .poll i => if i = id then false else a
    | .abort i => if i = id then true else a
    | _ => a) false

@[simp] theorem polls_append (id : Id) (log log' : List (Obs V)) :
    polls id (log ++ log') = polls id log + polls id log' := List.countP_append

@[simp] theorem abortedSince_note (id : Id) (log : List (Obs V)) (o : Obs V) : abortedSince id (log ++ [o]) =
    match o with
    | .poll i => if i = id then false else abortedSince id log
    | .abort i => if i = id then true else abortedSince id log
    | _ => abortedSince id log := by
  unfold abortedSince
  rw [List.foldl_append]
  cases o <;> rfl

namespace Exec

/-- A task that is never polled again. -/
def Dead (e : Exec V) (id : Id) : Prop := e.state id ≠ .taskEnd ∧ (e.state id).live = false

/-- **A dead task stays dead and is not polled.** -/
theorem Act.dead {e e' : Exec V} (h : Act e e') (hI : e.Inv) {id : Id} (hd : e.Dead id) :
    e'.Dead id ∧ polls id e'.log = polls id e.log := by
  obtain ⟨h1, h2⟩ := hd
  -- the state of `id` changes between dead states only
  have key : ∀ e₁ : Exec V, e₁.state id = e.state id → polls id e₁.log = polls id e.log →
      e₁.Dead id ∧ polls id e₁.log = polls id e.log := fun e₁ hs hp => ⟨⟨hs ▸ h1, hs ▸ h2⟩, hp⟩
  cases h with
  | spawn node j hrun hid hlt =>
    have hne : id ≠ j := by
      rintro rfl
      exact h1 (hI.fresh _ (hid ▸ Nat.lt_succ_self _))
    exact key _ (by simp [state_insertTask, hne]) (by simp [insertTask, polls])
  | wake j hs =>
    have hne : id ≠ j := by rintro rfl; rw [hs] at h2; exact absurd h2 (by decide)
    exact key _ (by simp [hne]) (by simp [polls])
  | abortPolled j hs hp =>
    have hne : id ≠ j := by rintro rfl; rw [hs] at h2; cases h2
    exact key _ (by simp [hne]) (by simp [polls])
  | abort j hs hp =>
    have hne : id ≠ j := by rintro rfl; rw [hs] at h2; cases h2
    exact key _ (by simp [hne, dropUnsent]) (by simp [polls, dropUnsent])
  | poll j q hq hs hr hf =>
    have hne : id ≠ j := by rintro rfl; rw [hs] at h2; exact absurd h2 (by decide)
    exact key _ (by simp [hne, takeHead]) (by simp [polls, takeHead, Ne.symm hne])
  | clear j q st hq hs hr hf =>
    by_cases hj : id = j
    · subst hj
      refine ⟨⟨?_, ?_⟩, rfl⟩ <;> rcases hs with ⟨-, rfl⟩ | ⟨-, rfl⟩ <;> simp [clearHead, TaskState.live]
    · exact key _ (by simp [hj, clearHead]) rfl
  | pending j hr hs => exact key _ (by simp) (by simp [polls])
  | pendingAborted j hr hs => exact key _ (by simp [dropUnsent]) (by simp [polls, dropUnsent])
  | ready j v hr hs =>
    have hne : id ≠ j := by rintro rfl; rw [hs] at h2; exact absurd h2 (by decide)
    exact key _ (by simp [hne, sent]) (by simp [polls, sent])
  | readyQueued j v hr hs =>
    by_cases hj : id = j
    · subst hj
      exact ⟨⟨by simp, by simp [TaskState.live]⟩, by simp [polls, sent]⟩
    · exact key _ (by simp [hj, sent]) (by simp [polls, sent])
  | _ => exact key _ rfl (by simp [polls, setRunLevel, closeHandle])

/-- How the poll of `id` can end. -/
inductive PollEnd (e e' : Exec V) (id : Id) : Prop
  | ready (v : V) (hl : e'.log = e.log ++ [.ret id (some v), .drop id true])
      (hc : e'.pollHandle id = some (some v)) (hd : e'.Dead id)
  | aborted (hs : e.state id = .abortedReady) (hl : e'.log = e.log ++ [.ret id none, .drop id true])
      (hc : e'.pollHandle id = some none) (hd : e'.Dead id)
  | pending (hs : (e.state id).live = true) (hl : e'.log = e.log ++ [.ret id none])
      (ht : e'.tasks id = some ⟨some ⟨id, true⟩⟩)

/-- The log only grows. -/
theorem Act.log {e e' : Exec V} (h : Act e e') : ∃ os, e'.log = e.log ++ os := by
  cases h with
  | spawn node id hrun hid hlt => exact ⟨[.spawn id node, .wake id], List.append_assoc e.log [_] [_]⟩
  | abortPolled id hs hp => exact ⟨[.abort id], by simp⟩
  | abort id hs hp => exact ⟨[.abort id, .drop id false], by simp [dropUnsent]⟩
  | pendingAborted id hr hs => exact ⟨[.ret id none, .drop id true], List.append_assoc e.log [_] [_]⟩
  | ready id v hr hs | readyQueued id v hr hs =>
    exact ⟨[.ret id (some v), .drop id true], List.append_assoc e.log [_] [_]⟩
  | clear | finalize | start | pushNode | finalStop | newId => exact ⟨[], (List.append_nil _).symm⟩
  | _ => exact ⟨[_], rfl⟩

/-- Either the poll goes on, or it ends in one of three ways. -/
theorem Act.pollEnd {e e' : Exec V} (h : Act e e') {id : Id} (hp : e.polling = some id) :
    e'.polling = some id ∨ PollEnd e e' id := by
  have hid : ∀ {j : Id} {snd : Bool}, e.running = some ⟨j, snd⟩ → j = id := fun hr => by
    have := (polling_of_running hr).symm.trans hp
    exact Option.some.inj this
  cases h with
  | abortPolled j hs hp' => exact Or.inl (by simpa [polling] using hp)
  | abort j hs hp' => exact Or.inl (by simpa [polling, dropUnsent] using hp)
  | poll j q hq hs hr hf =>
    rw [polling, hr] at hp
    cases hp
  | pending j hr hs =>
    obtain rfl := hid hr
    exact Or.inr (.pending hs rfl (by simp))
  | pendingAborted j hr hs =>
    obtain rfl := hid hr
    refine Or.inr (.aborted hs (by simp [dropUnsent]) (by simp [pollHandle, dropUnsent]) ?_)
    simp [Dead, dropUnsent, hs, TaskState.live]
  | ready j v hr hs =>
    obtain rfl := hid hr
    exact Or.inr (.ready v (by simp [sent]) (by simp [pollHandle, sent]) (by simp [Dead, TaskState.live]))
  | readyQueued j v hr hs =>
    obtain rfl := hid hr
    exact Or.inr (.ready v (by simp [sent]) (by simp [pollHandle, sent]) (by simp [Dead, TaskState.live]))
  | _ => exact Or.inl hp

/-- The task being polled is a tombstone iff it was aborted during this poll. -/
def Tracked (e : Exec V) : Prop :=
  ∀ id, e.polling = some id → (e.state id = .abortedReady ↔ abortedSince id e.log = true)

theorem Act.tracked {e e' : Exec V} (h : Act e e') (hI : e.Inv) (hT : e.Tracked) : e'.Tracked := by
  intro id hid
  have key : ∀ e₁ : Exec V, e₁.polling = e.polling → e₁.polling = some id → e₁.state id = e.state id →
      abortedSince id e₁.log = abortedSince id e.log →
          (e₁.state id = .abortedReady ↔ abortedSince id e₁.log = true) :=
    fun e₁ hp hp' hs hl => by rw [hs, hl]; exact hT id (hp ▸ hp')
  cases h with
  | spawn node j hrun hid' hlt =>
    have hne : id ≠ j := by
      rintro rfl
      have := hI.polling_state hid
      rw [hI.fresh _ (hid' ▸ Nat.lt_succ_self _)] at this
      simp at this
    refine key _ rfl hid (by simp [state_insertTask, hne]) ?_
    exact (abortedSince_note id _ (.wake j)).trans (abortedSince_note id e.log (.spawn j node))
  | wakeIdle j hs hend => exact key _ rfl hid rfl (by simp)
  | wake j hs =>
    by_cases hj : id = j
    · subst hj
      have := hT id hid
      rw [hs] at this
      simp at this
      simp [this]
    · exact key _ rfl hid (by simp [hj]) (by simp)
  | abortIdle j hs =>
    by_cases hj : j = id
    · subst hj
      have h1 := hI.polling_state hid
      have h2 : e.state j = .abortedReady := by
        rcases h1 with h | h | h
        · rw [h] at hs; exact absurd hs (by decide)
        · rw [h] at hs; exact absurd hs (by decide)
        · exact h
      simp [h2]
    · exact key _ rfl hid rfl (by simp [hj])
  | abortPolled j hs hp =>
    by_cases hj : j = id
    · subst hj; simp
    · exact key _ (by simp [polling]) hid (by simp [Ne.symm hj]) (by simp [hj])
  | abort j hs hp =>
    have hid' : e.polling = some id := by simpa [polling, dropUnsent] using hid
    have hj : j ≠ id := by rintro rfl; exact hp hid'
    refine key _ (by simp [polling, dropUnsent]) hid (by simp [Ne.symm hj, dropUnsent]) ?_
    have h1 : abortedSince id ((e.note (.abort j)).abortAt j).log = abortedSince id e.log := by simp [hj]
    exact (abortedSince_note id _ (.drop j false)).trans h1
  | poll j q hq hs hr hf =>
    obtain rfl : j = id := by simpa [polling, takeHead] using hid
    simp [takeHead]
  | clear j q st hq hs hr hf =>
    have : e.polling = some id := hid
    rw [polling, hr] at this
    cases this
  | pending j hr hs => simp [polling] at hid
  | pendingAborted j hr hs => simp [polling, dropUnsent] at hid
  | ready j v hr hs => simp [polling] at hid
  | readyQueued j v hr hs => simp [polling] at hid
  | rootReady v j hr => exact key _ rfl hid rfl (by simp)
  | stop node level hrun hl => exact key _ rfl hid rfl (by simp [setRunLevel])
  | joined j r hr => exact key _ rfl hid rfl (by simp [closeHandle])
  | exhausted hq => exact key _ rfl hid rfl (by simp)
  | callback sim cb node => exact key _ rfl hid rfl (by simp)
  | _ => exact key _ rfl hid rfl rfl

theorem tracked_new : (Exec.new : Exec V).Tracked := fun id h => by cases h

end Exec

namespace SimCx

variable {Q : Type} [KeyedQueue Q Loc Instant] {b : SimBuilder} {s s' : SimCx V Q}

/-- The rule for invariants of the executor: what every act keeps holds in every reachable state. -/
theorem Reachable.exec_invariant {I : Exec V → Prop} (hr : Reachable b s) (h0 : I Exec.new)
    (hI : ∀ e e', e.Inv → I e → Exec.Act e e' → I e') : I s.ex := by
  refine hr.invariant (I := fun s => I s.ex) h0 fun s l s' hB hi hn => ?_
  rcases hn.act hB with h | h
  · rw [h]; exact hi
  · exact hI _ _ hB.exec hi h

theorem Next.log {l : Label V} (h : Next s l s') (hB : s.Base) : ∃ os, s'.ex.log = s.ex.log ++ os := by
  rcases h.act hB with he | he
  · exact ⟨[], by rw [he, List.append_nil]⟩
  · exact he.log

/-- What is in the log stays there. -/
theorem Base.log_mem (hB : s.Base) (h : Machine.Steps step s s') {o : Obs V} (ho : o ∈ s.ex.log) :
    o ∈ s'.ex.log := by
  refine h.inv_of (J := SimCx.Base) (I := fun m => o ∈ m.ex.log) (fun _ _ _ => step_base)
    (fun m l m' hm hi hst => ?_) hB ho
  obtain ⟨os, hos⟩ := (step_next hm hst).log hm
  rw [hos]
  exact List.mem_append_left _ hi

theorem Reachable.accounts (hr : Reachable b s) (id : Id) : s.ex.Accounts id :=
  hr.exec_invariant (I := fun e => ∀ id, e.Accounts id) Exec.accounts_new
    (fun _ _ hI hA h id => h.accounts hI hA id) id

theorem Reachable.tracked (hr : Reachable b s) : s.ex.Tracked :=
  hr.exec_invariant (I := Exec.Tracked) Exec.tracked_new fun _ _ hI hT h => h.tracked hI hT

/-- A dead task is not polled in any continuation. -/
theorem Base.dead (hB : s.Base) (h : Machine.Steps step s s') {id : Id} (hd : s.ex.Dead id) :
    s'.ex.Dead id ∧ polls id s'.ex.log = polls id s.ex.log := by
  refine h.inv_of (J := SimCx.Base) (I := fun m => m.ex.Dead id ∧ polls id m.ex.log = polls id s.ex.log)
    (fun _ _ _ => step_base) (fun m l m' hm hi hst => ?_) hB ⟨hd, rfl⟩
  rcases (step_next hm hst).act hm with he | he
  · rw [he]; exact hi
  · obtain ⟨h1, h2⟩ := he.dead hm.exec hi.1
    exact ⟨h1, h2.trans hi.2⟩

end SimCx

end Refault
