import Mathlib.Data.Finset.Basic
import Refault.Lib.Machine

/-!
# A plain FIFO scheduler

`FifoScheduler` keeps the live tasks and a duplicate-free list of the woken ones among them.  It reads events:
a wake appends a live task that is not listed, a removal deletes the task at once, a poll takes the head, and
`idle` is possible only when the list is empty.  Of every sequence of events it accepts the following hold: a
listed task stays listed until it is polled or removed (`listed_kept`), only tasks that were listed before it
are polled until then, each once and in their order (`polled_ahead`), and a task that is not listed is polled
only after a wake (`poll_needs_wake`).
-/

/-- The live tasks, and the woken ones among them in order. -/
structure FifoScheduler (ι : Type) [DecidableEq ι] where
  live : Finset ι
  queue : List ι
  nodup : queue.Nodup
  live_of_mem : ∀ i ∈ queue, i ∈ live

namespace FifoScheduler

variable {ι : Type} [DecidableEq ι]

/-- What the scheduler is told, and for `poll` and `idle` what it must agree to. -/
inductive Event (ι : Type)
  | spawn (i : ι)
  | wake (i : ι)
  /-- an abort or a completion -/
  | remove (i : ι)
  | poll (i : ι)
  | idle

def empty : FifoScheduler ι := ⟨∅, [], List.nodup_nil, fun _ h => by cases h⟩

def spawn (a : FifoScheduler ι) (i : ι) : FifoScheduler ι where
  live := insert i a.live
  queue := a.queue
  nodup := a.nodup
  live_of_mem j hj := Finset.mem_insert_of_mem (a.live_of_mem j hj)

def wake (a : FifoScheduler ι) (i : ι) : FifoScheduler ι :=
  if h : i ∈ a.live ∧ i ∉ a.queue then
    { live := a.live
      queue := a.queue ++ [i]
      nodup := List.nodup_append.mpr ⟨a.nodup, by simp, fun x hx y hy => by
        rw [List.mem_singleton.mp hy]
        exact fun hxy => h.2 (hxy ▸ hx)⟩
      live_of_mem := fun j hj => by
        rcases List.mem_append.mp hj with hj | hj
        · exact a.live_of_mem j hj
        · rw [List.mem_singleton.mp hj]
          exact h.1 }
  else a

def remove (a : FifoScheduler ι) (i : ι) : FifoScheduler ι where
  live := a.live.erase i
  queue := a.queue.erase i
  nodup := a.nodup.erase i
  live_of_mem j hj := by
    obtain ⟨h1, h2⟩ := (List.Nodup.mem_erase_iff a.nodup).mp hj
    exact Finset.mem_erase.mpr ⟨h1, a.live_of_mem j h2⟩

def tail (a : FifoScheduler ι) : FifoScheduler ι where
  live := a.live
  queue := a.queue.tail
  nodup := a.nodup.tail
  live_of_mem j hj := a.live_of_mem j (List.mem_of_mem_tail hj)

def step (a : FifoScheduler ι) : Event ι → Option (FifoScheduler ι)
  | .spawn i => some (a.spawn i)
  | .wake i => some (a.wake i)
  | .remove i => some (a.remove i)
  | .poll i => if a.queue.head? = some i then some a.tail else none
  | .idle => if a.queue = [] then some a else none

/-- The tasks that the events poll. -/
def polled (es : List (Event ι)) : List ι :=
  es.filterMap fun
    | .poll i => some i
    | _ => none

/-- The tasks listed before `i`. -/
def ahead (a : FifoScheduler ι) (i : ι) : List ι := a.queue.takeWhile (· ≠ i)

theorem mem_wake {a : FifoScheduler ι} {i j : ι} : j ∈ (a.wake i).queue ↔ j ∈ a.queue ∨ j = i ∧ i ∈ a.live := by
  unfold wake
  split
  · rename_i h
    simp only [List.mem_append, List.mem_singleton]
    constructor
    · rintro (hj | rfl)
      · exact Or.inl hj
      · exact Or.inr ⟨rfl, h.1⟩
    · rintro (hj | ⟨rfl, -⟩)
      · exact Or.inl hj
      · exact Or.inr rfl
  · rename_i h
    constructor
    · exact Or.inl
    · rintro (hj | ⟨rfl, hl⟩)
      · exact hj
      · by_contra hq
        exact h ⟨hl, hq⟩

section Runs

variable {a a' : FifoScheduler ι} {i : ι} {es : List (Event ι)}

/-- A listed task stays listed until it is polled or removed. -/
theorem listed_kept (h : Machine.accept step a es = some a') (hi : i ∈ a.queue) :
    i ∈ a'.queue ∨ .poll i ∈ es ∨ .remove i ∈ es := by
  induction es generalizing a with
  | nil =>
    cases h
    exact Or.inl hi
  | cons e es ih =>
    obtain ⟨m, hm, hrest⟩ := Option.bind_eq_some_iff.mp h
    by_cases hstay : i ∈ m.queue
    · rcases ih hrest hstay with h0 | h0 | h0
      · exact Or.inl h0
      · exact Or.inr (Or.inl (List.mem_cons_of_mem _ h0))
      · exact Or.inr (Or.inr (List.mem_cons_of_mem _ h0))
    · -- the event took the task off the list
      refine Or.inr ?_
      cases e with
      | spawn j => cases hm; exact absurd hi hstay
      | wake j => cases hm; exact absurd (mem_wake.mpr (Or.inl hi)) hstay
      | remove j =>
        cases hm
        by_cases hj : i = j
        · subst hj; exact Or.inr List.mem_cons_self
        · exact absurd ((List.mem_erase_of_ne hj).mpr hi) hstay
      | poll j =>
        simp only [step] at hm
        split_ifs at hm with hhead
        cases hm
        obtain ⟨q, hq⟩ : ∃ q, a.queue = j :: q := by
          cases hq : a.queue with
          | nil => rw [hq] at hhead; cases hhead
          | cons k q => rw [hq] at hhead; cases hhead; exact ⟨q, rfl⟩
        rw [hq] at hi
        rcases List.mem_cons.mp hi with rfl | hi
        · exact Or.inl List.mem_cons_self
        · exact absurd (show i ∈ a.queue.tail by rw [hq]; exact hi) hstay
      | idle =>
        simp only [step] at hm
        split_ifs at hm
        cases hm
        exact absurd hi hstay

/-- What lists a task, and what is listed before it, when something is listed after. -/
theorem takeWhile_append_of_mem {q : List ι} (h : i ∈ q) (q' : List ι) :
    (q ++ q').takeWhile (· ≠ i) = q.takeWhile (· ≠ i) := by
  induction q with
  | nil => cases h
  | cons j q ih =>
    by_cases hj : j = i
    · simp [hj]
    · rw [List.cons_append, List.takeWhile_cons_of_pos (by simpa using hj),
        List.takeWhile_cons_of_pos (by simpa using hj), ih ((List.mem_cons.mp h).resolve_left (Ne.symm hj))]

theorem takeWhile_erase_sublist {q : List ι} {j : ι} (hj : j ≠ i) :
    ((q.erase j).takeWhile (· ≠ i)).Sublist (q.takeWhile (· ≠ i)) := by
  induction q with
  | nil => exact List.Sublist.refl _
  | cons k q ih =>
    by_cases hk : k = j
    · subst hk
      rw [List.erase_cons_head, List.takeWhile_cons_of_pos (by simpa using hj)]
      exact List.sublist_cons_self _ _
    · rw [List.erase_cons_tail (by simpa using hk)]
      by_cases hki : k = i
      · simp [hki]
      · rw [List.takeWhile_cons_of_pos (by simpa using hki), List.takeWhile_cons_of_pos (by simpa using hki)]
        exact ih.cons_cons k

/-- One event that leaves a listed task alone. -/
theorem step_ahead {e : Event ι} (h : step a e = some a') (hi : i ∈ a.queue) (hp : e ≠ .poll i)
    (hr : e ≠ .remove i) : i ∈ a'.queue ∧ (polled [e] ++ a'.ahead i).Sublist (a.ahead i) := by
  cases e with
  | spawn j => cases h; exact ⟨hi, List.Sublist.refl _⟩
  | wake j =>
    cases h
    refine ⟨mem_wake.mpr (Or.inl hi), ?_⟩
    show ((a.wake j).queue.takeWhile (· ≠ i)).Sublist (a.queue.takeWhile (· ≠ i))
    unfold wake
    split
    · rw [takeWhile_append_of_mem hi]
    · exact List.Sublist.refl _
  | remove j =>
    cases h
    have hj : j ≠ i := fun h0 => hr (h0 ▸ rfl)
    exact ⟨(List.mem_erase_of_ne hj.symm).mpr hi, takeWhile_erase_sublist hj⟩
  | poll j =>
    simp only [step] at h
    split_ifs at h with hhead
    cases h
    have hj : j ≠ i := fun h0 => hp (h0 ▸ rfl)
    obtain ⟨q, hq⟩ : ∃ q, a.queue = j :: q := by
      cases hq : a.queue with
      | nil => rw [hq] at hhead; cases hhead
      | cons k q => rw [hq] at hhead; cases hhead; exact ⟨q, rfl⟩
    have htail : a.tail.queue = q := by simp [tail, hq]
    refine ⟨htail ▸ (List.mem_cons.mp (hq ▸ hi)).resolve_left hj.symm, ?_⟩
    show (j :: a.tail.queue.takeWhile (· ≠ i)).Sublist (a.queue.takeWhile (· ≠ i))
    rw [htail, hq, List.takeWhile_cons_of_pos (by simpa using hj)]
  | idle =>
    simp only [step] at h
    split_ifs at h with hnil
    rw [hnil] at hi
    cases hi

/-- Until a listed task is polled or removed, the tasks that are polled are among those before it, each once
and in their order; those that are left are before it still. -/
theorem polled_ahead (h : Machine.accept step a es = some a') (hi : i ∈ a.queue) (hp : .poll i ∉ es)
    (hr : .remove i ∉ es) : i ∈ a'.queue ∧ (polled es ++ a'.ahead i).Sublist (a.ahead i) := by
  induction es generalizing a with
  | nil =>
    cases h
    exact ⟨hi, List.Sublist.refl _⟩
  | cons e es ih =>
    obtain ⟨m, hm, hrest⟩ := Option.bind_eq_some_iff.mp h
    obtain ⟨hp₁, hp₂⟩ := not_or.mp fun h0 => hp (List.mem_cons.mpr h0)
    obtain ⟨hr₁, hr₂⟩ := not_or.mp fun h0 => hr (List.mem_cons.mpr h0)
    obtain ⟨hin, hone⟩ := step_ahead hm hi (Ne.symm hp₁) (Ne.symm hr₁)
    obtain ⟨hin', hmore⟩ := ih hrest hin hp₂ hr₂
    refine ⟨hin', ?_⟩
    have hsplit : polled ([e] ++ es) = polled [e] ++ polled es := List.filterMap_append
    rw [← List.singleton_append, hsplit, List.append_assoc]
    exact (hmore.append_left _).trans hone

/-- A live task stays live until it is removed. -/
theorem live_kept (h : Machine.accept step a es = some a') (hi : i ∈ a.live) (hr : .remove i ∉ es) :
    i ∈ a'.live := by
  induction es generalizing a with
  | nil =>
    cases h
    exact hi
  | cons e es ih =>
    obtain ⟨m, hm, hrest⟩ := Option.bind_eq_some_iff.mp h
    refine ih hrest ?_ fun h0 => hr (List.mem_cons_of_mem _ h0)
    cases e with
    | spawn j => cases hm; exact Finset.mem_insert_of_mem hi
    | wake j =>
      cases hm
      show i ∈ (a.wake j).live
      unfold wake
      split <;> exact hi
    | remove j =>
      cases hm
      refine Finset.mem_erase.mpr ⟨?_, hi⟩
      rintro rfl
      exact hr List.mem_cons_self
    | poll j | idle =>
      simp only [step] at hm
      split_ifs at hm
      cases hm
      exact hi

/-- A task that is not listed is polled only after a wake. -/
theorem poll_needs_wake (h : Machine.accept step a es = some a') (hi : i ∉ a.queue) (hp : .poll i ∈ es) :
    .wake i ∈ es := by
  induction es generalizing a with
  | nil => cases hp
  | cons e es ih =>
    obtain ⟨m, hm, hrest⟩ := Option.bind_eq_some_iff.mp h
    by_cases hw : e = .wake i
    · rw [hw]
      exact List.mem_cons_self
    · have hnot : i ∉ m.queue ∧ e ≠ .poll i := by
        cases e with
        | spawn j => cases hm; exact ⟨hi, fun h => by cases h⟩
        | wake j =>
          cases hm
          refine ⟨fun hj => ?_, fun h => by cases h⟩
          rcases mem_wake.mp hj with hj | ⟨rfl, -⟩
          · exact hi hj
          · exact hw rfl
        | remove j => cases hm; exact ⟨fun hj => hi (List.mem_of_mem_erase hj), fun h => by cases h⟩
        | poll j =>
          simp only [step] at hm
          split_ifs at hm with hhead
          cases hm
          refine ⟨fun hj => hi (List.mem_of_mem_tail hj), ?_⟩
          rintro ⟨⟩
          exact hi (List.mem_of_mem_head? hhead)
        | idle =>
          simp only [step] at hm
          split_ifs at hm
          cases hm
          exact ⟨hi, fun h => by cases h⟩
      rcases List.mem_cons.mp hp with rfl | hp
      · exact absurd rfl hnot.2
      · exact List.mem_cons_of_mem _ (ih hrest hnot.1 hp)

/-- A task is not polled twice for one wake. -/
theorem wake_between {mid : List (Event ι)} (h : Machine.accept step a (.poll i :: mid) = some a')
    (hp : .poll i ∈ mid) : .wake i ∈ mid := by
  obtain ⟨m, hm, hrest⟩ := Option.bind_eq_some_iff.mp h
  simp only [step] at hm
  split_ifs at hm with hhead
  cases hm
  refine poll_needs_wake hrest ?_ hp
  have hn := a.nodup
  show i ∉ a.queue.tail
  cases hq : a.queue with
  | nil => simp
  | cons j q =>
    rw [hq] at hhead hn
    cases hhead
    exact (List.nodup_cons.mp hn).1

end Runs

end FifoScheduler
